import Busker.FixedFinal.Response
import Mathlib.Data.List.Basic

/-! The certificate a TLS handshake is answered with: the materials loaded from files, the
lookup function over them and the managed certificates (`build-tls-lookup-fn`), its native
callback, and the two that call it, `clj_ssl_select_certificate_cb` for TCP and
`clj_on_client_hello_cb` for HTTP/3. Memory can be allocated. -/

namespace Busker.Certificates

open Busker.FixedFinal (JavaString ascii asciiLower)

def fullStop : UInt16 := 46

def asterisk : UInt16 := 42

/-- A certificate chain with its key, as PEM. -/
structure Material where
  certChainPem : JavaString
  privateKeyPem : JavaString
  deriving DecidableEq, Repr

structure StaticMaterial where
  names : List JavaString
  material : Material
  deriving DecidableEq, Repr

/-- The pieces of `str/split` at dots, before it drops the empty ones at the end. -/
def pieces : JavaString → List JavaString
  | [] => [[]]
  | c :: rest =>
    if c = fullStop then [] :: pieces rest
    else match pieces rest with
      | [] => [[c]]
      | piece :: more => (c :: piece) :: more

/-- `(str/split s #"\\.")`; a string without a dot is the only piece. -/
def splitDots (s : JavaString) : List JavaString :=
  if fullStop ∈ s then ((pieces s).reverse.dropWhile List.isEmpty).reverse else [s]

def wildcardSubjectName (subjectName : JavaString) : Bool := [asterisk, fullStop].isPrefixOf subjectName

/-- `subject-name-matches-hostname?` -/
def subjectNameMatchesHostname (subjectName hostname : JavaString) : Bool :=
  if subjectName = hostname then true
  else if wildcardSubjectName subjectName then
    (subjectName.drop 1).isSuffixOf hostname &&
      (splitDots hostname).length == (splitDots (subjectName.drop 2)).length + 1
  else false

/-- The path of a file; the configuration names none that does not exist. -/
abbrev Path := { path : JavaString // path ≠ [] }

/-- A directory of a folder entry, and which of the four files it has. -/
structure Directory where
  certPem : Option Path
  keyPem : Option Path
  fullchainPem : Option Path
  privkeyPem : Option Path
  deriving DecidableEq, Repr

/-- An entry of `:load`; entries of another type load nothing. -/
inductive LoadEntry
  | pem (certFile keyFile : Path)
  | folder (directories : List Directory)
  | other
  deriving DecidableEq, Repr

/-- What the files hold, and the subject names of the first certificate in one. -/
structure Files where
  slurp : Path → JavaString
  certificateSubjectNames : Path → List JavaString

def directoryPemPair (dir : Directory) : Option (Path × Path) :=
  match dir.certPem, dir.keyPem with
  | some certPem, some keyPem => some (certPem, keyPem)
  | _, _ => match dir.fullchainPem, dir.privkeyPem with
    | some fullchainPem, some privkeyPem => some (fullchainPem, privkeyPem)
    | _, _ => none

def Files.material (files : Files) (identity : Path × Path) : Material :=
  ⟨files.slurp identity.1, files.slurp identity.2⟩

/-- `tls-material-from-files` -/
def tlsMaterialFromFiles (files : Files) (identity : Path × Path) : StaticMaterial :=
  ⟨files.certificateSubjectNames identity.1, files.material identity⟩

/-- `load-static-tls-materials` -/
def loadStaticTlsMaterials (files : Files) (load : List LoadEntry) : List StaticMaterial :=
  load.flatMap fun
    | .pem certFile keyFile => [tlsMaterialFromFiles files (certFile, keyFile)]
    | .folder directories => (directories.filterMap directoryPemPair).map (tlsMaterialFromFiles files)
    | .other => []

/-- `first-static-tls-identity` -/
def firstStaticTlsIdentity (load : List LoadEntry) : Option (Path × Path) :=
  load.findSome? fun
    | .pem certFile keyFile => some (certFile, keyFile)
    | .folder directories => (directories.filterMap directoryPemPair).head?
    | .other => none

/-- A certificate in a managed bundle: PEM text, an encoded one with its PEM, or a value
that is neither. -/
inductive BundleCertificate
  | pem (text : JavaString)
  | x509 (encoded : JavaString)
  | unsupported
  deriving DecidableEq, Repr

structure Bundle where
  certificate : List BundleCertificate
  privateKey : Option JavaString
  deriving DecidableEq, Repr

inductive LookupError
  | unsupportedCertificate
  | thrown (message : JavaString)
  deriving DecidableEq, Repr

def certificateToPem : BundleCertificate → Except LookupError JavaString
  | .pem text => .ok text
  | .x509 encoded => .ok encoded
  | .unsupported => .error .unsupportedCertificate

/-- `clave-bundle->tls-material` -/
def claveBundleToTlsMaterial (bundle : Bundle) : Except LookupError (Option Material) :=
  match bundle.certificate, bundle.privateKey with
  | [], _ => .ok none
  | _ :: _, none => .ok none
  | first :: rest, some privateKeyPem => do
    let certChain ← (first :: rest).mapM certificateToPem
    return some ⟨certChain.flatten, privateKeyPem⟩

/-- The managed certificates: what the lookup of a name answers, and the managed names. -/
structure CertRuntime where
  lookupFn : JavaString → Except LookupError (Option Bundle)
  subjectNames : List JavaString

def managedMaterial (runtime : CertRuntime) (hostname : JavaString) :
    Except LookupError (Option Material) := do
  match ← runtime.lookupFn hostname with
  | none => return none
  | some bundle => claveBundleToTlsMaterial bundle

/-- The first static material one of whose names matches. -/
def firstMatch (materials : List StaticMaterial) (hostname : JavaString) : Option Material :=
  materials.findSome? fun m =>
    if m.names.any fun name => subjectNameMatchesHostname name hostname then some m.material
    else none

/-- A name that was sent and is not empty. -/
def sniHostname (hostname : Option JavaString) : Option JavaString := hostname.filter (· ≠ [])

/-- The function `build-tls-lookup-fn` returns. -/
def tlsLookup (materials : List StaticMaterial) (runtime : CertRuntime)
    (hostname : Option JavaString) : Except LookupError (Option Material) :=
  match (sniHostname hostname).bind (firstMatch materials) with
  | some staticMatch => .ok (some staticMatch)
  | none => match sniHostname hostname with
    | some sni => managedMaterial runtime sni
    | none => match materials.head? with
      | some fallback => .ok (some fallback.material)
      | none => match runtime.subjectNames.head? with
        | some fallbackSubjectName => managedMaterial runtime fallbackSubjectName
        | none => .ok none

/-- What the native callback returns: 1 with both texts, 0 or -1. -/
inductive Status
  | found (material : Material)
  | miss
  | failed
  deriving DecidableEq, Repr

/-- `build-tls-lookup-callback` -/
def tlsLookupCallback (lookup : Option JavaString → Except LookupError (Option Material))
    (hostname : Option JavaString) : Status :=
  match lookup hostname with
  | .error _ => .failed
  | .ok none => .miss
  | .ok (some material) =>
    if material.certChainPem ≠ [] ∧ material.privateKeyPem ≠ [] then .found material else .failed

/-- What the TLS libraries make of a certificate and its key: whether OpenSSL takes them
for a connection, and picotls from memory and from files. -/
structure Libraries where
  opensslApplies : Material → Bool
  ptlsLoads : Material → Bool
  ptlsLoadsFiles : Material → Bool

/-- `clj_ssl_select_certificate_cb` on a context made without an identity; `none` fails the
handshake. -/
def sslSelectCertificate (libs : Libraries) (callback : Option JavaString → Status)
    (serverName : Option JavaString) : Option Material :=
  match callback (sniHostname serverName) with
  | .found material => if libs.opensslApplies material then some material else none
  | .miss => none
  | .failed => none

/-- An entry of the identity cache, whose material was loaded. -/
structure CacheEntry (libs : Libraries) where
  hostname : Option JavaString
  material : Material
  loaded : libs.ptlsLoads material = true

/-- `clj_ptls_wrapper_t`: the identity the context was made with, and the cache. -/
structure PtlsWrapper (libs : Libraries) where
  identity : Option Material
  cache : List (CacheEntry libs)

/-- `clj_h2o_create_ptls_ctx`; `none` is the null pointer, on which start-up throws. -/
def createPtlsCtx (libs : Libraries) (files : Files) :
    Option (Path × Path) → Option (PtlsWrapper libs)
  | none => some ⟨none, []⟩
  | some identity =>
    if libs.ptlsLoadsFiles (files.material identity) then
      some ⟨some (files.material identity), []⟩
    else none

/-- Load a material and cache it under the name. -/
def PtlsWrapper.insert {libs : Libraries} (wrapper : PtlsWrapper libs) (hostname : Option JavaString)
    (material : Material) : PtlsWrapper libs × Option Material :=
  if loaded : libs.ptlsLoads material = true then
    ({ wrapper with cache := ⟨hostname, material, loaded⟩ :: wrapper.cache }, some material)
  else (wrapper, none)

/-- `clj_on_client_hello_cb`; after a miss the handshake goes on with the identity of the
context, and `none` is a handshake without a certificate. -/
def onClientHello {libs : Libraries} (callback : Option JavaString → Status)
    (wrapper : PtlsWrapper libs) (serverName : Option JavaString) :
    PtlsWrapper libs × Option Material :=
  match callback (sniHostname serverName) with
  | .found material =>
    match wrapper.cache.find? fun entry => entry.hostname = sniHostname serverName with
    | some entry =>
      if entry.material = material then (wrapper, some entry.material)
      else wrapper.insert (sniHostname serverName) material
    | none => wrapper.insert (sniHostname serverName) material
  | .miss => (wrapper, wrapper.identity)
  | .failed => (wrapper, wrapper.identity)

end Busker.Certificates
