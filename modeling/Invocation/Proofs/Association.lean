/-!
# Association lists

A list of pairs whose keys are all different is a table: what is found for a key is what is listed
for it (`lookup_eq_some_iff_mem`), and all of the others are left if what is listed for it is taken
out (`perm_cons_filter`).
-/

namespace Invocation

variable {α β : Type} [DecidableEq α]

/-- What is found for a key is listed for it. -/
theorem mem_of_lookup_eq_some {l : List (α × β)} {a : α} {b : β} (h : l.lookup a = some b) :
    (a, b) ∈ l := by
  obtain ⟨before, after, rfl, -⟩ := List.lookup_eq_some_iff.mp h
  simp

/-- If no key is listed twice, what is listed for a key is found for it. -/
theorem lookup_eq_some_iff_mem {l : List (α × β)} (h : (l.map Prod.fst).Nodup) (a : α) (b : β) :
    l.lookup a = some b ↔ (a, b) ∈ l := by
  constructor
  · exact mem_of_lookup_eq_some
  · intro hm
    obtain ⟨before, after, rfl⟩ := List.append_of_mem hm
    rw [List.map_append, List.nodup_append] at h
    rw [List.lookup_eq_some_iff]
    refine ⟨before, after, rfl, fun p hp ↦ ?_⟩
    have hne := h.2.2 p.1 (List.mem_map_of_mem hp) a (List.mem_cons_self ..)
    simpa using hne.symm

/-- If no key is listed twice, a table is what is listed for a key and what is listed for others. -/
theorem perm_cons_filter {l : List (α × β)} (h : (l.map Prod.fst).Nodup) {a : α} {b : β}
    (hm : (a, b) ∈ l) : l.Perm ((a, b) :: l.filter (·.1 != a)) := by
  obtain ⟨before, after, rfl⟩ := List.append_of_mem hm
  rw [List.map_append, List.nodup_append, List.map_cons, List.nodup_cons] at h
  have hbefore : before.filter (·.1 != a) = before := by
    rw [List.filter_eq_self]
    intro p hp
    simpa using h.2.2 p.1 (List.mem_map_of_mem hp) a (List.mem_cons_self ..)
  have hafter : after.filter (·.1 != a) = after := by
    rw [List.filter_eq_self]
    intro p hp
    have hp : p.1 ∈ after.map Prod.fst := List.mem_map_of_mem hp
    have hne : p.1 ≠ a := fun he ↦ h.2.1.1 (he ▸ hp)
    simpa using hne
  rw [List.filter_append, List.filter_cons_of_neg (by simp), hbefore, hafter]
  exact List.perm_middle

end Invocation
