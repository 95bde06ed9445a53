import Mathlib.Data.List.Dedup

/-! Items grouped by a key, the groups in the order of their first items. -/

namespace OpenTulpa.Library.Groups

variable {α κ : Type} [DecidableEq κ]

/-- The different keys, each at its first place. -/
def firsts (keys : List κ) : List κ := keys.reverse.dedup.reverse

theorem nodup_firsts (keys : List κ) : (firsts keys).Nodup := List.nodup_reverse.mpr (List.nodup_dedup _)

theorem mem_firsts {keys : List κ} {key : κ} : key ∈ firsts keys ↔ key ∈ keys := by
  rw [firsts, List.mem_reverse, List.mem_dedup, List.mem_reverse]

/-- The values of a dictionary of lists that is filled item by item. -/
def groups (key : α → κ) (items : List α) : List (List α) :=
  (firsts (items.map key)).map fun name => items.filter fun item => key item = name

theorem mem_groups {key : α → κ} {items group : List α} :
    group ∈ groups key items ↔ ∃ first ∈ items, items.filter (fun item => key item = key first) = group := by
  rw [groups, List.mem_map]
  constructor
  · rintro ⟨name, member, rfl⟩
    obtain ⟨first, inside, rfl⟩ := List.mem_map.mp (mem_firsts.mp member)
    exact ⟨first, inside, rfl⟩
  · rintro ⟨first, inside, rfl⟩
    exact ⟨key first, mem_firsts.mpr (List.mem_map_of_mem inside), rfl⟩

/-- Each group begins with an item, and all of its items have the key of the first. -/
theorem group_begins {key : α → κ} {items group : List α} (member : group ∈ groups key items) :
    ∃ first rest, group = first :: rest ∧ first ∈ items ∧ ∀ item ∈ group, item ∈ items ∧ key item = key first := by
  obtain ⟨named, inside, rfl⟩ := mem_groups.mp member
  have filled : items.filter (fun item => key item = key named) ≠ [] :=
    List.ne_nil_of_mem (List.mem_filter.mpr ⟨inside, decide_eq_true rfl⟩)
  obtain ⟨first, rest, begins⟩ := List.exists_cons_of_ne_nil filled
  have head : first ∈ items.filter fun item => key item = key named := by
    rw [begins]
    exact List.mem_cons_self
  have same : key first = key named := by simpa using (List.mem_filter.mp head).2
  refine ⟨first, rest, begins, (List.mem_filter.mp head).1, fun item held => ?_⟩
  obtain ⟨listed, named⟩ := List.mem_filter.mp held
  exact ⟨listed, (of_decide_eq_true named).trans same.symm⟩

/-- Two groups have no key in common. -/
theorem groups_apart (key : α → κ) (items : List α) :
    (groups key items).Pairwise fun first second => ∀ a ∈ first, ∀ b ∈ second, key a ≠ key b := by
  rw [groups, List.pairwise_map]
  refine (nodup_firsts (items.map key)).imp fun {first second} differs a left b right same => ?_
  have named : key a = first := by simpa using (List.mem_filter.mp left).2
  have other : key b = second := by simpa using (List.mem_filter.mp right).2
  exact differs (named.symm.trans (same.trans other))

end OpenTulpa.Library.Groups
