import Mathlib.Logic.Relation
import OpenTulpa.Host.ProcessTable
import OpenTulpa.Library.Saturation

/-! The descendants of the leader of a runtime in a process table. The table is read process by process while they come and
go, so that its parents may be missing, stand in a cycle, or lead back to the leader. -/

namespace OpenTulpa.Host.Descendants

open Library.Saturation ProcessTable

variable (processes : List (Nat × LinuxProcessMetadata)) (leaderPid : Nat)

/-- The processes of the table that satisfy a condition. -/
def pidsWhere (holds : LinuxProcessMetadata → Bool) : Finset Nat :=
  ((processes.filter fun process => holds process.2).map Prod.fst).toFinset

/-- `discovered` -/
def discovered (descendants : Finset Nat) : Finset Nat :=
  ((pidsWhere processes fun metadata => metadata.parentPid ∈ {leaderPid} ∪ descendants) \ descendants) \ {leaderPid}

/-- The loop of `_inspect_linux_descendants` in a number of turns. -/
def descendantsIn (turns : Nat) : Option (Finset Nat) := saturate (discovered processes leaderPid) turns ∅

/-- The process of the table has the parent. -/
def ChildOf (parent pid : Nat) : Prop := ∃ metadata, (pid, metadata) ∈ processes ∧ metadata.parentPid = parent

/-- The process is reached from the leader through children. -/
def Descends (pid : Nat) : Prop := Relation.ReflTransGen (ChildOf processes) leaderPid pid

variable {processes leaderPid} {descendants : Finset Nat} {pid : Nat}

theorem mem_discovered : pid ∈ discovered processes leaderPid descendants ↔
    (∃ parent, (parent = leaderPid ∨ parent ∈ descendants) ∧ ChildOf processes parent pid) ∧ pid ∉ descendants ∧
      pid ≠ leaderPid := by
  simp only [discovered, pidsWhere, Finset.mem_sdiff, Finset.mem_singleton, List.mem_toFinset, List.mem_map, List.mem_filter,
    decide_eq_true_eq, Finset.mem_union, and_assoc]
  constructor
  · rintro ⟨⟨⟨other, metadata⟩, listed, parent, rfl⟩, new, apart⟩
    exact ⟨⟨metadata.parentPid, parent, metadata, listed, rfl⟩, new, apart⟩
  · rintro ⟨⟨parent, known, metadata, listed, rfl⟩, new, apart⟩
    exact ⟨⟨(pid, metadata), listed, known, rfl⟩, new, apart⟩

theorem discovered_bounded : Bounded (discovered processes leaderPid) (processes.map Prod.fst).toFinset where
  fresh := fun known => Finset.disjoint_right.mpr fun _ member => (mem_discovered.mp member).2.1
  within := by
    intro known pid member
    obtain ⟨⟨_, _, metadata, listed, _⟩, _⟩ := mem_discovered.mp member
    exact List.mem_toFinset.mpr (List.mem_map_of_mem listed)

/-- A turn that knows descendants finds descendants. -/
theorem discovered_sound (sound : ∀ other ∈ descendants, other ≠ leaderPid ∧ Descends processes leaderPid other) :
    ∀ other ∈ discovered processes leaderPid descendants, other ≠ leaderPid ∧ Descends processes leaderPid other := by
  intro other member
  obtain ⟨⟨parent, known, child⟩, _, apart⟩ := mem_discovered.mp member
  refine ⟨apart, ?_⟩
  rcases known with rfl | inside
  · exact .single child
  · exact (sound parent inside).2.tail child

/-- Where a turn finds nothing, every descendant is known. -/
theorem known_of_descends (settled : discovered processes leaderPid descendants = ∅)
    (descends : Descends processes leaderPid pid) : pid = leaderPid ∨ pid ∈ descendants := by
  induction descends with
  | refl => exact Or.inl rfl
  | @tail parent child _ own known =>
    by_contra missed
    rw [not_or] at missed
    have member : child ∈ discovered processes leaderPid descendants :=
      mem_discovered.mpr ⟨⟨parent, known, own⟩, missed.2, missed.1⟩
    rw [settled] at member
    exact absurd member (Finset.notMem_empty child)

theorem mem_descendantsIn {turns : Nat} (done : descendantsIn processes leaderPid turns = some descendants) :
    pid ∈ descendants ↔ pid ≠ leaderPid ∧ Descends processes leaderPid pid := by
  constructor
  · exact saturated_sound (P := fun pid => pid ≠ leaderPid ∧ Descends processes leaderPid pid)
      (fun known => discovered_sound) (by simp) done pid
  · rintro ⟨apart, descends⟩
    exact (known_of_descends (found_saturated done) descends).resolve_left apart

/-- For every table and leader there is a set that the loop ends with, in at most one turn more than the table has
processes: those other than the leader that descend from it. -/
theorem descendants_exact (processes : List (Nat × LinuxProcessMetadata)) (leaderPid : Nat) :
    ∃ descendants, (∀ turns > processes.length, descendantsIn processes leaderPid turns = some descendants) ∧
      ∀ pid, pid ∈ descendants ↔ pid ≠ leaderPid ∧ Descends processes leaderPid pid := by
  have ends : ∀ turns > processes.length, ∃ descendants, descendantsIn processes leaderPid turns = some descendants := by
    intro turns enough
    have size := List.toFinset_card_le (processes.map Prod.fst)
    rw [List.length_map] at size
    refine discovered_bounded.ends (Finset.empty_subset _) ?_
    rw [Finset.card_empty]
    omega
  obtain ⟨descendants, first⟩ := ends (processes.length + 1) (Nat.lt_succ_self _)
  refine ⟨descendants, fun turns enough => ?_, fun pid => mem_descendantsIn first⟩
  obtain ⟨others, done⟩ := ends turns enough
  have same : others = descendants := Finset.ext fun pid => (mem_descendantsIn done).trans (mem_descendantsIn first).symm
  rw [done, same]

end OpenTulpa.Host.Descendants
