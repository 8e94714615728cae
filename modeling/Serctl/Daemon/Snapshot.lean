import Mathlib.Data.List.TakeWhile
import Serctl.Ipc.Frame
import Serctl.Lib.Table

/-!
# Snapshots of registered operations

The registries of transfers and of tunnels show their records the same way.  A record that belongs
to an operation context is shown to a caller that names the context; to one that does not, it is
shown once, and counts as discovered from then on where discovery is enforced.
-/

namespace Serctl.Daemon.Snapshot

open Lib Ipc List

/-- A kind of record that can be shown; `noun` is what messages call it. -/
class Subject (ν : Type) (π : outParam Type) where
  noun : String
  shown : ν → π
  context : ν → Option OperationContextId
  discovered : ν → Bool
  markDiscovered : ν → ν

variable {κ ν π : Type} [Subject ν π]

/-- The error about a wrong context. -/
def contextMismatch (ν : Type) {π : Type} [Subject ν π] : Error :=
  .msg (Subject.noun ν ++
    " operation context does not match this daemon instance and object")

/-- May the record be shown, and has its context been discovered by that? -/
def inspect (record : ν) (operationContextId : Option OperationContextId)
    (enforceContextDiscovery : Bool) : Except Error Bool :=
  match Subject.context record, operationContextId with
  | none, _ => .ok false
  | some actual, some expected =>
    if actual = expected then .ok false else .error (contextMismatch ν)
  | some _, none =>
    if enforceContextDiscovery = true ∧ Subject.discovered record = true then
      .error (.msg (Subject.noun ν ++
        " operation context is required after initial discovery"))
    else .ok enforceContextDiscovery

/-- The records that are shown up to the first one that cannot be, and those whose context has
    been discovered. -/
def visit (operationContextId : Option OperationContextId) (enforceContextDiscovery : Bool) :
    List (κ × ν) → Except Error (List π) × List κ
  | [] => (.ok [], [])
  | (id, record) :: rest =>
    match inspect record operationContextId enforceContextDiscovery with
    | .error e => (.error e, [])
    | .ok discovers =>
      let (shown, discovered) := visit operationContextId enforceContextDiscovery rest
      (shown.map (Subject.shown record :: ·), if discovers then id :: discovered else discovered)

/-- The records with some of them marked as discovered. -/
def discover [DecidableEq κ] (records : Table κ ν) (discovered : List κ) : Table κ ν :=
  records.mapValues fun id record =>
    if id ∈ discovered then Subject.markDiscovered record else record

/-- The records with a context before the first one whose context has been discovered. -/
def fresh (entries : List (κ × ν)) : List (κ × ν) :=
  (entries.takeWhile fun entry =>
    !((Subject.context entry.2).isSome && Subject.discovered entry.2)).filter fun entry =>
      (Subject.context entry.2).isSome

/-- What is discovered without a context, where discovery is enforced. -/
theorem visit_discovered (operationContextId : Option OperationContextId)
    (enforceContextDiscovery : Bool) (entries : List (κ × ν)) :
    (visit operationContextId enforceContextDiscovery entries).2 =
      if operationContextId = none ∧ enforceContextDiscovery = true then
        (fresh entries).map Prod.fst else [] := by
  induction entries with
  | nil => simp [visit, fresh]
  | cons entry entries ih =>
    obtain ⟨first, record⟩ := entry
    cases hcontext : Subject.context record with
    | none => simp [visit, inspect, fresh, hcontext, ih]
    | some actual =>
      cases operationContextId with
      | some expected =>
        by_cases hsame : actual = expected <;> simp [visit, inspect, hcontext, hsame, ih]
      | none =>
        cases enforceContextDiscovery <;> cases hknown : Subject.discovered record <;>
          simp [visit, inspect, fresh, hcontext, hknown, ih]

theorem discover_nil [DecidableEq κ] (records : Table κ ν) : discover records [] = records := by
  simp [discover, Table.mapValues]

variable {entries : List (κ × ν)}

theorem mem_of_mem_fresh {id : κ} {record : ν} (h : (id, record) ∈ fresh entries) :
    (id, record) ∈ entries ∧ Subject.discovered record = false := by
  obtain ⟨htaken, hcontext⟩ := mem_filter.mp h
  have hunknown := mem_takeWhile_imp htaken
  simp only [hcontext, Bool.true_and, Bool.not_eq_true'] at hunknown
  exact ⟨takeWhile_subset _ htaken, hunknown⟩

variable {enforceContextDiscovery : Bool} {operationContextId : Option OperationContextId}

/-- What is discovered is among what is visited. -/
theorem mem_of_mem_discovered {id : κ}
    (h : id ∈ (visit operationContextId enforceContextDiscovery entries).2) :
    ∃ record, (id, record) ∈ entries := by
  rw [visit_discovered] at h
  split_ifs at h
  · obtain ⟨⟨_, record⟩, hmem, rfl⟩ := mem_map.mp h
    exact ⟨record, (mem_of_mem_fresh hmem).1⟩
  · cases h

/-- What is shown is all of what is visited. -/
theorem visit_eq_ok {shown : List π}
    (h : (visit operationContextId enforceContextDiscovery entries).1 = .ok shown) :
    shown = entries.map fun entry => Subject.shown entry.2 := by
  induction entries generalizing shown with
  | nil =>
    cases h
    rfl
  | cons entry entries ih =>
    obtain ⟨first, record⟩ := entry
    simp only [visit] at h
    split at h
    · cases h
    · cases hrest : (visit operationContextId enforceContextDiscovery entries).1 with
      | error e =>
        rw [hrest] at h
        cases h
      | ok rest =>
        rw [hrest] at h
        cases h
        rw [ih hrest]
        rfl

theorem find_discover [DecidableEq κ] (records : Table κ ν) (discovered : List κ) (id : κ) :
    (discover records discovered).find id = (records.find id).map fun record =>
      if id ∈ discovered then Subject.markDiscovered record else record := by
  rw [discover, Table.find_mapValues]

end Serctl.Daemon.Snapshot
