import Busker.CloseCallbacks.Chain
import Busker.Interleaving.Census
import Busker.Interleaving.Exclusive
import Busker.Interleaving.Monitor

/-! What the lock of the emitter keeps together: a registered callback is in the lifecycle
vector or in a task of the chain, and a task that no thread runs yet is in the hands of
the call that reserved it. -/

namespace Busker.CloseCallbacks

open Interleaving

variable {ι κ : Type*}

/-- The call is a `close` that has claimed the emitter. -/
def Site.claims : Site → Bool
  | .closed | .closeThrew => true
  | .onClose | .alreadyStopped | .stopEmitter => false

def Batch.claims : Batch κ → Bool
  | .late _ => false
  | .final site _ => site.claims

namespace Caller

/-- Holds the lifecycle lock. -/
def inside : Caller κ → Bool
  | .registerRead _ | .registerPush _ _ | .beginRead _ | .beginSet _ | .beginUnlock _ _ => true
  | .terminalRead _ | .reserveRead _ | .reserveSwap _ _ | .terminalSet _ _ | .unlock _ _ => true
  | _ => false

/-- The task it has reserved and not yet handed to a thread. -/
def hand : Caller κ → Option ℕ
  | .terminalSet _ task | .unlock _ task => task
  | .dispatch _ task | .fallback _ task => some task
  | _ => none

/-- Has the callbacks of the vector in its task and has not yet emptied the vector. -/
def clearing : Caller κ → Bool
  | .terminalSet _ task => task.isSome
  | _ => false

/-- Is a `close` that has claimed the emitter and not returned. -/
def claiming : Caller κ → ℕ
  | .beginUnlock _ claimed => if claimed then 1 else 0
  | .closeStream => 1
  | .terminalLock site | .terminalRead site | .terminalSet site _ => if site.claims then 1 else 0
  | .unlock site _ | .dispatch site _ | .fallback site _ => if site.claims then 1 else 0
  | .reserveRead batch | .reserveSwap batch _ => if batch.claims then 1 else 0
  | _ => 0

end Caller

/-- What the holder of the lock knows of the lifecycle. -/
def Knows (lifecycle : Lifecycle κ) : Caller κ → Prop
  | .registerPush _ read => read = lifecycle ∧ lifecycle.phase ≠ .closed
  | .beginSet read => read = lifecycle ∧ lifecycle.phase = .opened
  | .reserveRead (.late _) | .reserveSwap (.late _) _ => lifecycle.phase = .closed
  | .reserveRead (.final _ callbacks) | .reserveSwap (.final _ callbacks) _ =>
    callbacks = lifecycle.callbacks ∧ lifecycle.phase ≠ .closed
  | .terminalSet _ task => lifecycle.phase ≠ .closed ∧ (task = none → lifecycle.callbacks = [])
  | _ => True

theorem knows_of_outside {lifecycle : Lifecycle κ} {c : Caller κ} (h : c.inside = false) :
    Knows lifecycle c := by
  cases c <;> simp_all [Caller.inside, Knows]

/-- The callbacks in the chain and in the vector are those that were registered. -/
def Accounted (e : Emitter ι κ) (clearing : Bool) : Prop :=
  e.registered = e.tasks.flatMap Task.callbacks ++ if clearing then [] else e.lifecycle.callbacks

/-- What a calling thread does to the chain, with what it has in hand before and after. -/
inductive ChainMove (e e' : Emitter ι κ) : Option ℕ → Option ℕ → Prop
  | keep (hand : Option ℕ) (tail : e'.tail = e.tail) (delivered : e'.delivered = e.delivered)
    (tasks : e'.tasks = e.tasks) (started : e'.started = e.started) : ChainMove e e' hand hand
  | reserve (callbacks : List κ) (tail : e'.tail = (e.reserve callbacks e.tail).tail)
    (delivered : e'.delivered = e.delivered) (tasks : e'.tasks = (e.reserve callbacks e.tail).tasks)
    (started : e'.started = e.started) : ChainMove e e' none (some e.tasks.length)
  | handOver (k : ℕ) (tail : e'.tail = e.tail) (delivered : e'.delivered = e.delivered)
    (tasks : e'.tasks = (e.handOver k).tasks) (started : e'.started = e.started) :
    ChainMove e e' (some k) none

/-- What one step of calling thread `i` does. -/
structure CallerSpec (i : ι) (e e' : Emitter ι κ) (c c' : Caller κ) : Prop where
  lock : LockMove i e.lock c.inside e'.lock c'.inside
  knows : Knows e'.lifecycle c'
  chain : ChainMove e e' c.hand c'.hand
  outside : c.inside = false → e'.lifecycle = e.lifecycle ∧ e'.registered = e.registered ∧
    e'.tasks.flatMap Task.callbacks = e.tasks.flatMap Task.callbacks ∧ c'.clearing = false
  emptied : (e.lifecycle.phase = .closed → e.lifecycle.callbacks = []) →
    e'.lifecycle.phase = .closed → e'.lifecycle.callbacks = []
  accounted : c.inside = true → (e.lifecycle.phase = .closed → e.lifecycle.callbacks = []) →
    Accounted e c.clearing → Accounted e' c'.clearing
  claims : c'.claiming + e'.closes ≤ c.claiming + e.closes ∨
    e.lifecycle.phase = .opened ∧ c'.claiming + e'.closes = c.claiming + e.closes + 1
  opened : e'.lifecycle.phase = .opened → e.lifecycle.phase = .opened ∧
    c'.claiming + e'.closes ≤ c.claiming + e.closes

theorem handOver_callbacks (e : Emitter ι κ) (k : ℕ) :
    (e.handOver k).tasks.flatMap Task.callbacks = e.tasks.flatMap Task.callbacks := by
  unfold Emitter.handOver
  split
  · rename_i task here
    obtain ⟨whole, changed⟩ := flatMap_set Task.callbacks (b := { task with runner := .dispatched }) here
    exact changed.trans whole.symm
  · rfl

theorem handOver_same (e : Emitter ι κ) (k : ℕ) :
    (e.handOver k).tail = e.tail ∧ (e.handOver k).delivered = e.delivered ∧
      (e.handOver k).started = e.started ∧ (e.handOver k).lifecycle = e.lifecycle ∧
      (e.handOver k).registered = e.registered ∧ (e.handOver k).lock = e.lock ∧
      (e.handOver k).closes = e.closes := by
  unfold Emitter.handOver
  split <;> exact ⟨rfl, rfl, rfl, rfl, rfl, rfl, rfl⟩

section spec

variable {i : ι} {e e' : Emitter ι κ} {c c' : Caller κ} {move : Move κ}

theorem acquire_next {next : Caller κ} (h : acquire i e next = some (e', c')) : next = c' := by
  unfold acquire at h
  split at h <;> simp only [Option.some.injEq, reduceCtorEq] at h
  exact (Prod.mk.inj h).2

/-- A call ends, and a `close` that returns `true` had claimed the emitter. -/
theorem leave_spec (e : Emitter ι κ) (site : Site) : ∃ closes,
    leave e site = ({ e with closes := closes }, .idle) ∧
      closes ≤ (if site.claims then 1 else 0) + e.closes := by
  cases site
  case closed => exact ⟨e.closes + 1, rfl, by simp [Site.claims, Nat.add_comm]⟩
  all_goals exact ⟨e.closes, rfl, Nat.le_add_left _ _⟩

theorem callerSpec_of_step (moved : callerStep i e c move = some (e', c')) (known : Knows e.lifecycle c) :
    CallerSpec i e e' c c' := by
  -- the steps that touch neither the emitter nor what the thread holds
  have quiet : ∀ {c c' : Caller κ}, c'.inside = c.inside → Knows e.lifecycle c' → c'.hand = c.hand →
      c'.clearing = false → c.clearing = false → c'.claiming ≤ c.claiming → CallerSpec i e e c c' := by
    intro c c' inside knows hand clear' clear claiming
    refine ⟨inside ▸ .stay _ _, knows, hand ▸ .keep _ rfl rfl rfl rfl, fun _ => ⟨rfl, rfl, rfl, clear'⟩, id,
      fun _ _ h => ?_, .inl (Nat.add_le_add_right claiming _), fun h => ⟨h, Nat.add_le_add_right claiming _⟩⟩
    rwa [clear', ← clear]
  have locked : ∀ {c c' : Caller κ}, c.inside = false → c'.inside = true → Knows e.lifecycle c' →
      c'.hand = c.hand → c'.clearing = false → c'.claiming ≤ c.claiming →
      acquire i e c' = some (e', c') → CallerSpec i e e' c c' := by
    intro c c' before after knows hand clear' claiming taken
    unfold acquire at taken
    split at taken <;> simp only [Option.some.injEq, reduceCtorEq] at taken
    rename_i free
    obtain ⟨rfl, -⟩ := Prod.mk.inj taken
    refine ⟨?_, knows, hand ▸ .keep _ rfl rfl rfl rfl, fun _ => ⟨rfl, rfl, rfl, clear'⟩, id,
      fun h => by simp [before] at h, .inl (Nat.add_le_add_right claiming _),
      fun h => ⟨h, Nat.add_le_add_right claiming _⟩⟩
    rw [free, before, after]
    exact .enter
  cases c <;> cases move <;> simp only [callerStep, Option.some.injEq, reduceCtorEq] at moved
  case idle.onClose callback | idle.close writer | idle.stopEmitter created =>
    obtain ⟨rfl, rfl⟩ := Prod.mk.inj moved
    exact quiet rfl trivial rfl rfl rfl le_rfl
  case registerLock.tick callback | beginLock.tick writer =>
    obtain rfl : _ = c' := acquire_next moved
    exact locked rfl rfl trivial rfl rfl (Nat.zero_le _) moved
  case terminalLock.tick site =>
    obtain rfl : _ = c' := acquire_next moved
    exact locked rfl rfl trivial rfl rfl le_rfl moved
  case registerRead.tick callback =>
    obtain ⟨rfl, rfl⟩ := Prod.mk.inj moved
    split
    · rename_i closed
      exact quiet rfl closed rfl rfl rfl (Nat.zero_le _)
    · rename_i unclosed
      exact quiet rfl ⟨rfl, unclosed⟩ rfl rfl rfl (Nat.zero_le _)
  case closeStopped.tick writer =>
    obtain ⟨rfl, rfl⟩ := Prod.mk.inj moved
    split <;> exact quiet rfl trivial rfl rfl rfl (Nat.zero_le _)
  case beginRead.tick writer =>
    obtain ⟨rfl, rfl⟩ := Prod.mk.inj moved
    split
    · rename_i opened
      exact quiet rfl ⟨rfl, opened⟩ rfl rfl rfl (Nat.zero_le _)
    · exact quiet rfl trivial rfl rfl rfl (Nat.zero_le _)
  case closeStream.tick | closeStream.throws =>
    obtain ⟨rfl, rfl⟩ := Prod.mk.inj moved
    exact quiet rfl trivial rfl rfl rfl le_rfl
  case closeAgain.tick writer =>
    obtain ⟨rfl, rfl⟩ := Prod.mk.inj moved
    split <;> exact quiet rfl trivial rfl rfl rfl (Nat.zero_le _)
  case stopWriter.throws created =>
    obtain ⟨rfl, rfl⟩ := Prod.mk.inj moved
    exact quiet rfl trivial rfl rfl rfl (Nat.zero_le _)
  case terminalRead.tick site =>
    obtain ⟨rfl, rfl⟩ := Prod.mk.inj moved
    unfold terminalRead
    split
    · exact quiet rfl trivial rfl rfl rfl le_rfl
    · rename_i unclosed
      split
      · rename_i empty
        exact quiet rfl ⟨unclosed, fun _ => List.isEmpty_iff.mp empty⟩ rfl rfl rfl le_rfl
      · exact quiet rfl ⟨rfl, unclosed⟩ rfl rfl rfl le_rfl
  case reserveRead.tick batch =>
    obtain ⟨rfl, rfl⟩ := Prod.mk.inj moved
    refine quiet rfl ?_ rfl rfl rfl le_rfl
    cases batch <;> exact known
  case dispatch.throws site task =>
    obtain ⟨rfl, rfl⟩ := Prod.mk.inj moved
    exact quiet rfl trivial rfl rfl rfl le_rfl
  case registerPush.tick callback read =>
    obtain ⟨rfl, rfl⟩ := Prod.mk.inj moved
    obtain ⟨rfl, unclosed⟩ := known
    refine ⟨.stay _ _, trivial, .keep _ rfl rfl rfl rfl, fun h => by simp [Caller.inside] at h,
      fun _ closed => absurd closed unclosed, fun _ _ before => ?_, .inl le_rfl, fun h => ⟨h, le_rfl⟩⟩
    change e.registered ++ [callback] =
      e.tasks.flatMap Task.callbacks ++ (e.lifecycle.callbacks ++ [callback])
    rw [← List.append_assoc]
    exact congrArg (· ++ [callback]) before
  case beginSet.tick read =>
    obtain ⟨rfl, rfl⟩ := Prod.mk.inj moved
    obtain ⟨rfl, opened⟩ := known
    refine ⟨.stay _ _, trivial, .keep _ rfl rfl rfl rfl, fun h => by simp [Caller.inside] at h,
      fun _ closed => by simp [Emitter.setLifecycle] at closed, fun _ _ before => before,
      .inr ⟨opened, ?_⟩, fun h => by simp [Emitter.setLifecycle] at h⟩
    change 1 + e.closes = 0 + e.closes + 1
    omega
  case beginUnlock.tick writer claimed =>
    obtain ⟨rfl, rfl⟩ := Prod.mk.inj moved
    have within : (if claimed then .closeStream else .closeAgain writer : Caller κ).inside = false ∧
        (if claimed then .closeStream else .closeAgain writer : Caller κ).hand = none ∧
        (if claimed then .closeStream else .closeAgain writer : Caller κ).clearing = false ∧
        (if claimed then .closeStream else .closeAgain writer : Caller κ).claiming =
          if claimed then 1 else 0 := by
      cases claimed <;> exact ⟨rfl, rfl, rfl, rfl⟩
    obtain ⟨outside, hand, clear, claiming⟩ := within
    refine ⟨?_, knows_of_outside outside, ?_, fun h => by simp [Caller.inside] at h, id,
      fun _ _ before => ?_, .inl ?_, fun h => ⟨h, ?_⟩⟩
    · rw [outside]
      exact .leave _
    · rw [hand]
      exact .keep _ rfl rfl rfl rfl
    · rw [clear]
      exact before
    all_goals rw [claiming]; exact le_rfl
  case stopWriter.tick created =>
    obtain ⟨rfl, rfl⟩ := Prod.mk.inj moved
    exact ⟨.stay _ _, trivial, .keep _ rfl rfl rfl rfl, fun _ => ⟨rfl, rfl, rfl, rfl⟩, id,
      fun h => by simp [Caller.inside] at h, .inl le_rfl, fun h => ⟨h, le_rfl⟩⟩
  case reserveSwap.tick batch previous =>
    unfold reserveSwap at moved
    split at moved
    · rename_i same
      subst same
      cases batch with
      | late callback =>
        obtain ⟨rfl, rfl⟩ := Prod.mk.inj moved
        refine ⟨.stay _ _, trivial, .reserve [callback] rfl rfl rfl rfl,
          fun h => by simp [Caller.inside] at h, id, fun _ emptied before => ?_, .inl le_rfl,
          fun h => ⟨h, le_rfl⟩⟩
        have nothing_left := emptied known
        simp only [Accounted, Caller.clearing, nothing_left, List.append_nil, ite_self] at before
        simp [Accounted, Emitter.reserve, Emitter.register, before, nothing_left]
      | final site callbacks =>
        obtain ⟨rfl, rfl⟩ := Prod.mk.inj moved
        obtain ⟨rfl, unclosed⟩ := known
        refine ⟨.stay _ _, ⟨unclosed, fun h => by simp at h⟩, .reserve _ rfl rfl rfl rfl,
          fun h => by simp [Caller.inside] at h, id, fun _ _ before => ?_, .inl le_rfl,
          fun h => ⟨h, le_rfl⟩⟩
        simp only [Accounted, Caller.clearing, Bool.false_eq_true, if_false] at before
        simp [Accounted, Caller.clearing, Emitter.reserve, before]
    · obtain ⟨rfl, rfl⟩ := Prod.mk.inj moved
      refine quiet rfl ?_ rfl rfl rfl le_rfl
      cases batch <;> exact known
  case terminalSet.tick site task =>
    obtain ⟨rfl, rfl⟩ := Prod.mk.inj moved
    refine ⟨.stay _ _, trivial, .keep _ rfl rfl rfl rfl, fun h => by simp [Caller.inside] at h,
      fun _ _ => rfl, fun _ _ before => ?_, .inl le_rfl, fun h => by simp [Emitter.setLifecycle] at h⟩
    have callbacks : (if (Caller.terminalSet site task : Caller κ).clearing then [] else
        e.lifecycle.callbacks) = [] := by
      cases task with
      | none => exact known.2 rfl
      | some k => rfl
    rw [Accounted, callbacks] at before
    exact before
  case unlock.tick site task =>
    cases task with
    | none =>
      obtain ⟨closes, left, bound⟩ := leave_spec { e with lock := none } site
      rw [left] at moved
      obtain ⟨rfl, rfl⟩ := Prod.mk.inj (Option.some.inj moved)
      refine ⟨.leave _, trivial, .keep _ rfl rfl rfl rfl, fun h => by simp [Caller.inside] at h, id,
        fun _ _ before => before, .inl ((Nat.zero_add closes).trans_le bound),
        fun h => ⟨h, (Nat.zero_add closes).trans_le bound⟩⟩
    | some k =>
      obtain ⟨rfl, rfl⟩ := Prod.mk.inj (Option.some.inj moved)
      exact ⟨.leave _, trivial, .keep _ rfl rfl rfl rfl, fun h => by simp [Caller.inside] at h, id,
        fun _ _ before => before, .inl le_rfl, fun h => ⟨h, le_rfl⟩⟩
  all_goals
    rename_i site task
    obtain ⟨closes, left, bound⟩ := leave_spec (e.handOver task) site
    rw [left] at moved
    obtain ⟨rfl, rfl⟩ := Prod.mk.inj moved
    obtain ⟨tail, delivered, started, lifecycle, registered, lock, same⟩ := handOver_same e task
    rw [same] at bound
    refine ⟨?_, trivial, .handOver task tail delivered rfl started,
      fun _ => ⟨lifecycle, registered, handOver_callbacks e task, rfl⟩, ?_,
      fun h => by simp [Caller.inside] at h, .inl ((Nat.zero_add closes).trans_le bound),
      fun h => ⟨?_, (Nat.zero_add closes).trans_le bound⟩⟩
    · dsimp only
      rw [lock]
      exact .stay _ _
    · dsimp only
      rw [lifecycle]
      exact id
    · dsimp only at h
      rwa [lifecycle] at h

end spec

end Busker.CloseCallbacks
