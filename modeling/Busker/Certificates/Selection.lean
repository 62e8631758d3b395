import Busker.Certificates.Lookup

/-! Whether TCP and HTTP/3 answer a handshake with the documented certificate. A name that
no static or managed certificate covers is a miss of the lookup, on which OpenSSL is told
to fail and picotls goes on with the first static identity. -/

namespace Busker.Certificates

open Busker.FixedFinal (JavaString ascii)

variable {libs : Libraries} {files : Files} {load : List LoadEntry}
  {materials : List StaticMaterial} {runtime : CertRuntime} {serverName : Option JavaString}
  {wrapper : PtlsWrapper libs}

/-- The managed certificate for a name, if the lookup has one. -/
def issued (runtime : CertRuntime) (hostname : JavaString) : Option Material :=
  (managedMaterial runtime hostname).toOption.join

/-- The documented rule: the first static material that matches the name, else the managed
certificate for it, else the first static one. -/
def documented (materials : List StaticMaterial) (runtime : CertRuntime)
    (serverName : Option JavaString) : Option Material :=
  (sniHostname serverName).bind (firstMatch materials) <|>
    (sniHostname serverName).bind (issued runtime) <|>
      materials.head?.map StaticMaterial.material

/-- Both transports select the same certificate, and the documented one where the
documentation names one. -/
def AgreeAsDocumented (tcp http3 rule : Option Material) : Prop :=
  tcp = http3 ∧ ∀ material, rule = some material → tcp = some material

/-- Both texts are there. -/
def Material.Complete (material : Material) : Prop :=
  material.certChainPem ≠ [] ∧ material.privateKeyPem ≠ []

instance (material : Material) : Decidable material.Complete := inferInstanceAs (Decidable (_ ∧ _))

/-- A name was sent that no certificate covers. -/
def Unmatched (materials : List StaticMaterial) (runtime : CertRuntime)
    (serverName : Option JavaString) : Prop :=
  ∃ sni, sniHostname serverName = some sni ∧ firstMatch materials sni = none ∧
    issued runtime sni = none

/-- When the transports agree: a name that no certificate covers finds no static ones, and
the TLS libraries take the documented pair, or where none is documented both or neither the
one of the first managed name. -/
structure Served (libs : Libraries) (materials : List StaticMaterial) (runtime : CertRuntime)
    (serverName : Option JavaString) : Prop where
  covered : Unmatched materials runtime serverName → materials = []
  taken : ∀ material, documented materials runtime serverName = some material →
    material.Complete ∧ libs.opensslApplies material = true ∧ libs.ptlsLoads material = true
  alike : sniHostname serverName = none → materials = [] → ∀ material,
    runtime.subjectNames.head?.bind (issued runtime) = some material → material.Complete →
      libs.opensslApplies material = libs.ptlsLoads material

/-- The first static identity is that of the first static material. -/
theorem firstStaticTlsIdentity_material (files : Files) (load : List LoadEntry) :
    (firstStaticTlsIdentity load).map files.material =
      (loadStaticTlsMaterials files load).head?.map StaticMaterial.material := by
  induction load with
  | nil => rfl
  | cons entry rest ih =>
    unfold firstStaticTlsIdentity loadStaticTlsMaterials at *
    rw [List.findSome?_cons, List.flatMap_cons]
    cases entry with
    | pem certFile keyFile => rfl
    | folder directories =>
      cases pairs : directories.filterMap directoryPemPair with
      | nil => simpa [pairs] using ih
      | cons pair more => simp [pairs, tlsMaterialFromFiles]
    | other => simpa using ih

/-- Whatever the cache holds, HTTP/3 selects what the lookup finds, if it loads. -/
theorem onClientHello_selects (callback : Option JavaString → Status) (wrapper : PtlsWrapper libs)
    (serverName : Option JavaString) :
    (onClientHello callback wrapper serverName).2 =
      match callback (sniHostname serverName) with
      | .found material => if libs.ptlsLoads material then some material else none
      | .miss => wrapper.identity
      | .failed => wrapper.identity := by
  unfold onClientHello
  cases callback (sniHostname serverName) with
  | miss => rfl
  | failed => rfl
  | found material =>
    have inserted : (wrapper.insert (sniHostname serverName) material).2 =
        if libs.ptlsLoads material then some material else none := by
      unfold PtlsWrapper.insert
      split <;> rfl
    simp only
    split
    · rename_i entry _
      split
      · rename_i same
        rw [if_pos (same ▸ entry.loaded), same]
      · exact inserted
    · exact inserted

theorem onClientHello_identity (callback : Option JavaString → Status) (wrapper : PtlsWrapper libs)
    (serverName : Option JavaString) :
    (onClientHello callback wrapper serverName).1.identity = wrapper.identity := by
  have inserted : ∀ hostname material, (wrapper.insert hostname material).1.identity = wrapper.identity := by
    intro hostname material
    unfold PtlsWrapper.insert
    split <;> rfl
  unfold onClientHello
  split
  · split
    · split
      · rfl
      · exact inserted _ _
    · exact inserted _ _
  · rfl
  · rfl

theorem sniHostname_sniHostname (serverName : Option JavaString) :
    sniHostname (sniHostname serverName) = sniHostname serverName := by
  unfold sniHostname
  rw [Option.filter_filter]
  simp

/-- What the lookup answers, an exception being no answer. -/
def answered (materials : List StaticMaterial) (runtime : CertRuntime)
    (serverName : Option JavaString) : Option Material :=
  (tlsLookup materials runtime (sniHostname serverName)).toOption.join

theorem status_of_answered (materials : List StaticMaterial) (runtime : CertRuntime)
    (serverName : Option JavaString) :
    (∃ material, answered materials runtime serverName = some material ∧ material.Complete ∧
        tlsLookupCallback (tlsLookup materials runtime) (sniHostname serverName) = .found material) ∨
      (∀ material, answered materials runtime serverName = some material → ¬ material.Complete) ∧
        (tlsLookupCallback (tlsLookup materials runtime) (sniHostname serverName) = .miss ∨
          tlsLookupCallback (tlsLookup materials runtime) (sniHostname serverName) = .failed) := by
  unfold answered tlsLookupCallback
  rcases tlsLookup materials runtime (sniHostname serverName) with error | _ | material
  · exact .inr ⟨by simp [Except.toOption], .inr rfl⟩
  · exact .inr ⟨by simp [Except.toOption], .inl rfl⟩
  · by_cases complete : material.Complete
    · exact .inl ⟨material, rfl, complete, if_pos complete⟩
    · refine .inr ⟨?_, .inr (if_neg complete)⟩
      intro other same
      rwa [← Option.some.inj same]

/-- The lookup answers with the documented certificate, unless a name is not covered. -/
theorem answered_documented (covered : ¬ Unmatched materials runtime serverName)
    (named : sniHostname serverName ≠ none ∨ materials ≠ []) : ∃ material,
      answered materials runtime serverName = some material ∧
        documented materials runtime serverName = some material := by
  unfold answered documented tlsLookup
  rw [sniHostname_sniHostname]
  cases sent : sniHostname serverName with
  | none =>
    have some_material := named.resolve_left fun h => h sent
    cases materials with
    | nil => exact absurd rfl some_material
    | cons first rest => exact ⟨first.material, rfl, rfl⟩
  | some sni =>
    rw [Option.bind_some, Option.bind_some]
    cases found : firstMatch materials sni with
    | some material => exact ⟨material, rfl, rfl⟩
    | none =>
      cases managed : issued runtime sni with
      | none => exact absurd ⟨sni, sent, found, managed⟩ covered
      | some material => exact ⟨material, managed, rfl⟩

theorem answered_unmatched (unmatched : Unmatched materials runtime serverName) :
    answered materials runtime serverName = none ∧
      documented materials runtime serverName = materials.head?.map StaticMaterial.material := by
  obtain ⟨sni, sent, found, managed⟩ := unmatched
  unfold answered documented tlsLookup
  rw [sniHostname_sniHostname, sent, Option.bind_some, Option.bind_some, found, managed]
  exact ⟨managed, rfl⟩

theorem answered_nothing (runtime : CertRuntime) (sent : sniHostname serverName = none) (empty : materials = []) :
    answered materials runtime serverName = runtime.subjectNames.head?.bind (issued runtime) ∧
      documented materials runtime serverName = none := by
  unfold answered documented tlsLookup
  rw [sniHostname_sniHostname, sent, empty]
  cases runtime.subjectNames.head? with
  | none => exact ⟨rfl, rfl⟩
  | some name => exact ⟨rfl, rfl⟩

/-- The certificate a handshake over TCP is answered with. -/
def tcpSelection (libs : Libraries) (materials : List StaticMaterial) (runtime : CertRuntime)
    (serverName : Option JavaString) : Option Material :=
  sslSelectCertificate libs (tlsLookupCallback (tlsLookup materials runtime)) serverName

/-- The certificate a handshake over HTTP/3 is answered with. -/
def http3Selection (wrapper : PtlsWrapper libs) (materials : List StaticMaterial)
    (runtime : CertRuntime) (serverName : Option JavaString) : Option Material :=
  (onClientHello (tlsLookupCallback (tlsLookup materials runtime)) wrapper serverName).2

theorem selections_of_complete (libs : Libraries) (wrapper : PtlsWrapper libs) {material : Material}
    (answer : answered materials runtime serverName = some material)
    (complete : material.Complete) :
    tcpSelection libs materials runtime serverName =
        (if libs.opensslApplies material then some material else none) ∧
      http3Selection wrapper materials runtime serverName =
        if libs.ptlsLoads material then some material else none := by
  rcases status_of_answered materials runtime serverName with ⟨other, same, _, status⟩ | ⟨lacks, _⟩
  · obtain rfl := Option.some.inj (answer.symm.trans same)
    unfold tcpSelection http3Selection sslSelectCertificate
    rw [onClientHello_selects, status]
    exact ⟨rfl, rfl⟩
  · exact absurd complete (lacks material answer)

theorem selections_of_lacking (libs : Libraries) (wrapper : PtlsWrapper libs)
    (lacks : ∀ material, answered materials runtime serverName = some material → ¬ material.Complete) :
    tcpSelection libs materials runtime serverName = none ∧
      http3Selection wrapper materials runtime serverName = wrapper.identity := by
  rcases status_of_answered materials runtime serverName with
    ⟨material, same, complete, _⟩ | ⟨_, status | status⟩
  · exact absurd complete (lacks material same)
  · unfold tcpSelection http3Selection sslSelectCertificate
    rw [onClientHello_selects, status]
    exact ⟨rfl, rfl⟩
  · unfold tcpSelection http3Selection sslSelectCertificate
    rw [onClientHello_selects, status]
    exact ⟨rfl, rfl⟩

/-- Handshakes over HTTP/3, each with what the managed certificates were then. -/
def afterHandshakes (materials : List StaticMaterial) (handshakes : List (CertRuntime × Option JavaString))
    (wrapper : PtlsWrapper libs) : PtlsWrapper libs :=
  handshakes.foldl (fun wrapper handshake =>
    (onClientHello (tlsLookupCallback (tlsLookup materials handshake.1)) wrapper handshake.2).1) wrapper

theorem afterHandshakes_identity (materials : List StaticMaterial)
    (handshakes : List (CertRuntime × Option JavaString)) (wrapper : PtlsWrapper libs) :
    (afterHandshakes materials handshakes wrapper).identity = wrapper.identity := by
  induction handshakes generalizing wrapper with
  | nil => rfl
  | cons handshake rest ih => exact (ih _).trans (onClientHello_identity ..)

theorem created_identity (created : createPtlsCtx libs files (firstStaticTlsIdentity load) = some wrapper) :
    wrapper.identity =
      (loadStaticTlsMaterials files load).head?.map StaticMaterial.material := by
  rw [← firstStaticTlsIdentity_material]
  cases identity : firstStaticTlsIdentity load with
  | none =>
    rw [identity] at created
    rw [← Option.some.inj created]
    rfl
  | some pair =>
    rw [identity, createPtlsCtx] at created
    split at created
    · rw [← Option.some.inj created]
      rfl
    · cases created

theorem agree_unmatched (unmatched : Unmatched materials runtime serverName)
    (identity : wrapper.identity = materials.head?.map StaticMaterial.material) :
    AgreeAsDocumented (tcpSelection libs materials runtime serverName)
        (http3Selection wrapper materials runtime serverName)
        (documented materials runtime serverName) ↔
      Served libs materials runtime serverName := by
  have ⟨answer, rule⟩ := answered_unmatched unmatched
  have lacks : ∀ material, answered materials runtime serverName = some material →
      ¬ material.Complete := by
    intro material same
    rw [answer] at same
    contradiction
  obtain ⟨tcp, http3⟩ := selections_of_lacking libs wrapper lacks
  unfold AgreeAsDocumented
  rw [tcp, http3, rule, identity]
  constructor
  · intro agree
    have none : materials = [] := by
      cases materials with
      | nil => rfl
      | cons first rest => cases agree.1
    have ⟨sni, sent, _⟩ := unmatched
    refine ⟨fun _ => none, ?_, ?_⟩
    · intro material named
      rw [rule, none] at named
      cases named
    · intro absent
      rw [absent] at sent
      cases sent
  · intro served
    rw [served.covered unmatched]
    exact ⟨rfl, fun _ same => same⟩

theorem agree_nothing (sent : sniHostname serverName = none) (empty : materials = [])
    (identity : wrapper.identity = none) :
    AgreeAsDocumented (tcpSelection libs materials runtime serverName)
        (http3Selection wrapper materials runtime serverName)
        (documented materials runtime serverName) ↔
      Served libs materials runtime serverName := by
  have ⟨answer, rule⟩ := answered_nothing runtime sent empty
  have alike : AgreeAsDocumented (tcpSelection libs materials runtime serverName)
      (http3Selection wrapper materials runtime serverName)
      (documented materials runtime serverName) ↔
        ∀ material, answered materials runtime serverName = some material → material.Complete →
          libs.opensslApplies material = libs.ptlsLoads material := by
    unfold AgreeAsDocumented
    rw [rule]
    by_cases found : ∃ material, answered materials runtime serverName = some material ∧
        material.Complete
    · obtain ⟨material, same, complete⟩ := found
      have ⟨tcp, http3⟩ := selections_of_complete libs wrapper same complete
      rw [tcp, http3, same]
      simp only [Option.some.injEq, forall_eq', complete, true_implies]
      cases libs.opensslApplies material <;> cases libs.ptlsLoads material <;> simp
    · have lacks : ∀ material, answered materials runtime serverName = some material →
          ¬ material.Complete := fun material same complete => found ⟨material, same, complete⟩
      have ⟨tcp, http3⟩ := selections_of_lacking libs wrapper lacks
      rw [tcp, http3, identity]
      simp only [reduceCtorEq, false_implies, implies_true, and_self, true_iff]
      exact fun material same complete => absurd complete (lacks material same)
  rw [alike, answer]
  constructor
  · intro same
    refine ⟨?_, ?_, fun _ _ => same⟩
    · exact fun _ => empty
    · intro material named
      rw [rule] at named
      cases named
  · exact fun served => served.alike sent empty

theorem agree_answered {material : Material} (covered : ¬ Unmatched materials runtime serverName)
    (named : sniHostname serverName ≠ none ∨ materials ≠ [])
    (answer : answered materials runtime serverName = some material)
    (rule : documented materials runtime serverName = some material) :
    AgreeAsDocumented (tcpSelection libs materials runtime serverName)
        (http3Selection wrapper materials runtime serverName)
        (documented materials runtime serverName) ↔
      Served libs materials runtime serverName := by
  have taken : AgreeAsDocumented (tcpSelection libs materials runtime serverName)
      (http3Selection wrapper materials runtime serverName)
      (documented materials runtime serverName) ↔
        material.Complete ∧ libs.opensslApplies material = true ∧
          libs.ptlsLoads material = true := by
    unfold AgreeAsDocumented
    rw [rule]
    by_cases complete : material.Complete
    · have ⟨tcp, http3⟩ := selections_of_complete libs wrapper answer complete
      rw [tcp, http3]
      simp only [Option.some.injEq, forall_eq', complete, true_and]
      cases libs.opensslApplies material <;> cases libs.ptlsLoads material <;> simp
    · have lacks : ∀ other, answered materials runtime serverName = some other →
          ¬ other.Complete := by
        intro other same
        rwa [← Option.some.inj (answer.symm.trans same)]
      have ⟨tcp, _⟩ := selections_of_lacking libs wrapper lacks
      rw [tcp]
      simp [complete]
  rw [taken]
  constructor
  · intro accepted
    refine ⟨fun unmatched => absurd unmatched covered, ?_, ?_⟩
    · intro other same
      rwa [← Option.some.inj (rule.symm.trans same)]
    · intro absent empty
      exact (named.elim (· absent) (· empty)).elim
  · exact fun served => served.taken material rule

/-- Exactly when TCP and HTTP/3 select the same certificate and the documented one, for any
configured sources, any managed certificates, any name or none, and any handshakes before
this one. -/
theorem agreeAsDocumented_iff (libs : Libraries) (files : Files) (load : List LoadEntry)
    (wrapper : PtlsWrapper libs)
    (created : createPtlsCtx libs files (firstStaticTlsIdentity load) = some wrapper)
    (handshakes : List (CertRuntime × Option JavaString)) (runtime : CertRuntime)
    (serverName : Option JavaString) :
    AgreeAsDocumented
        (tcpSelection libs (loadStaticTlsMaterials files load) runtime serverName)
        (http3Selection (afterHandshakes (loadStaticTlsMaterials files load) handshakes wrapper)
          (loadStaticTlsMaterials files load) runtime serverName)
        (documented (loadStaticTlsMaterials files load) runtime serverName) ↔
      Served libs (loadStaticTlsMaterials files load) runtime serverName := by
  have identity := (afterHandshakes_identity (loadStaticTlsMaterials files load) handshakes
    wrapper).trans (created_identity created)
  generalize afterHandshakes (loadStaticTlsMaterials files load) handshakes wrapper = later
    at identity ⊢
  generalize loadStaticTlsMaterials files load = materials at identity ⊢
  by_cases unmatched : Unmatched materials runtime serverName
  · exact agree_unmatched unmatched identity
  by_cases nothing : sniHostname serverName = none ∧ materials = []
  · rw [nothing.2] at identity
    exact agree_nothing nothing.1 nothing.2 identity
  · have named := not_and_or.mp nothing
    obtain ⟨material, answer, rule⟩ := answered_documented unmatched named
    exact agree_answered unmatched named answer rule

/-- Libraries that take every certificate. -/
def lenient : Libraries := ⟨fun _ => true, fun _ => true, fun _ => true⟩

/-- A certificate for `a.example`, loaded from two files, and no managed one. -/
def oneFile : List LoadEntry := [.pem ⟨ascii "a.crt", by decide⟩ ⟨ascii "a.key", by decide⟩]

def itsFiles : Files := ⟨fun path => path.val, fun _ => [ascii "a.example"]⟩

def noManaged : CertRuntime := ⟨fun _ => .ok none, []⟩

theorem oneFile_served :
    Served lenient (loadStaticTlsMaterials itsFiles oneFile) noManaged (some (ascii "a.example")) := by
  apply (agreeAsDocumented_iff lenient itsFiles oneFile ⟨some ⟨ascii "a.crt", ascii "a.key"⟩, []⟩ (by rfl)
    [(noManaged, none)] noManaged (some (ascii "a.example"))).mp
  have tcp : tcpSelection lenient (loadStaticTlsMaterials itsFiles oneFile) noManaged
      (some (ascii "a.example")) = some ⟨ascii "a.crt", ascii "a.key"⟩ := by decide +kernel
  have rule : documented (loadStaticTlsMaterials itsFiles oneFile) noManaged
      (some (ascii "a.example")) = some ⟨ascii "a.crt", ascii "a.key"⟩ := by decide +kernel
  constructor
  · rw [tcp]
    decide +kernel
  · rw [tcp, rule]
    exact fun _ same => same

theorem otherName_disagrees :
    ¬ ∀ (libs : Libraries) (files : Files) (load : List LoadEntry) (wrapper : PtlsWrapper libs)
      (runtime : CertRuntime) (serverName : Option JavaString),
      createPtlsCtx libs files (firstStaticTlsIdentity load) = some wrapper →
        AgreeAsDocumented
          (tcpSelection libs (loadStaticTlsMaterials files load) runtime serverName)
          (http3Selection wrapper (loadStaticTlsMaterials files load) runtime serverName)
          (documented (loadStaticTlsMaterials files load) runtime serverName) := by
  intro agree
  have same := (agree lenient itsFiles oneFile ⟨some ⟨ascii "a.crt", ascii "a.key"⟩, []⟩ noManaged
    (some (ascii "b.example")) (by rfl)).1
  revert same
  decide +kernel

end Busker.Certificates
