import Mathlib.Data.List.Count
import Mathlib.Data.List.Nodup
import Mathlib.Data.List.Perm.Basic
import Invocation.Heap

/-!
# Handles and their owners

Every handle has one owner: somebody outside the heap, or an object that holds it. A heap is
balanced with the handles that are owned outside of it if every object counts as many handles as
there are inside and outside, and is there because there are some (`Heap.Balanced`). Making an
object, retaining a handle, releasing handles and putting other contents into an object keep this,
as the handles outside change. A released handle is one less of its object, which is gone exactly if
it was the last (`Heap.Released`).
-/

namespace Invocation.Heap

variable {α : Type}

section Objects

/-- The object found is in the heap, and is the one of the handle. -/
theorem of_find?_eq_some {h : Heap α} {r : ObjectRef} {o : HeapObject α} (ho : h.find? r = some o) :
    o ∈ h.objects ∧ o.ref = r :=
  ⟨List.mem_of_find?_eq_some ho, by simpa using List.find?_some ho⟩

/-- No object is found if there is none of the handle. -/
theorem find?_eq_none_iff {h : Heap α} {r : ObjectRef} :
    h.find? r = none ↔ r ∉ h.objects.map HeapObject.ref := by
  simp [find?]

/-- An object is found as it was changed. -/
theorem find?_update (h : Heap α) (r s : ObjectRef) {f : HeapObject α → HeapObject α}
    (hf : ∀ o, (f o).ref = o.ref) :
    (h.update r f).find? s = (h.find? s).map fun o ↦ if o.ref = r then f o else o := by
  have href (o : HeapObject α) : (if o.ref = r then f o else o).ref = o.ref := by
    split
    · exact hf o
    · rfl
  rw [find?, update, List.find?_map]
  congr 2
  funext o
  rw [Function.comp, href]

/-- The number of handles of an object after it was changed. -/
theorem handleCount_update (h : Heap α) (r s : ObjectRef) {f : HeapObject α → HeapObject α}
    (hf : ∀ o, (f o).ref = o.ref) :
    (h.update r f).handleCount s =
      if s = r then ((h.find? r).map fun o ↦ (f o).handles).getD 0 else h.handleCount s := by
  rw [handleCount, handleCount, find?_update h r s hf]
  cases ho : h.find? s with
  | none =>
    by_cases hs : s = r
    · subst hs
      simp [ho]
    · simp [hs]
  | some o =>
    obtain ⟨-, href⟩ := of_find?_eq_some ho
    by_cases hs : s = r
    · subst hs
      simp [ho, href]
    · simp [hs, href]

/-- The objects that are left when one was taken away are found as before. -/
theorem find?_remove (h : Heap α) (r s : ObjectRef) :
    (h.remove r).find? s = if s = r then none else h.find? s := by
  by_cases hs : s = r
  · subst hs
    rw [if_pos rfl]
    simp [find?, remove]
  · rw [if_neg hs, find?, find?, remove, List.find?_filter]
    congr 1
    funext o
    by_cases ho : o.ref = s <;> simp [ho, hs]

/-- The heap consists of an object and of what is left when it is taken away. -/
theorem perm_objects {h : Heap α} (hd : (h.objects.map HeapObject.ref).Nodup) {r : ObjectRef}
    {o : HeapObject α} (ho : h.find? r = some o) : h.objects.Perm (o :: (h.remove r).objects) := by
  obtain ⟨hm, href⟩ := of_find?_eq_some ho
  have hnodup : h.objects.Nodup := hd.of_map
  have hrest : (o :: (h.remove r).objects).Nodup := by
    refine List.nodup_cons.mpr ⟨?_, hnodup.filter _⟩
    simp [remove, href]
  refine (List.perm_ext_iff_of_nodup hnodup hrest).mpr fun x ↦ ?_
  rw [List.mem_cons, remove, List.mem_filter]
  constructor
  · intro hx
    by_cases hxr : x.ref = r
    · exact .inl (List.inj_on_of_nodup_map hd hx hm (hxr.trans href.symm))
    · exact .inr ⟨hx, by simp [hxr]⟩
  · rintro (rfl | ⟨hx, -⟩)
    · exact hm
    · exact hx

/-- The heap consists of a changed object and of what is left when it is taken away. -/
theorem perm_update {h : Heap α} (hd : (h.objects.map HeapObject.ref).Nodup) {r : ObjectRef}
    {o : HeapObject α} (ho : h.find? r = some o) (f : HeapObject α → HeapObject α) :
    (h.update r f).objects.Perm (f o :: (h.remove r).objects) := by
  obtain ⟨-, href⟩ := of_find?_eq_some ho
  have hrest : (h.remove r).objects.map (fun o ↦ if o.ref = r then f o else o) =
      (h.remove r).objects := by
    refine (List.map_congr_left fun x hx ↦ ?_).trans (List.map_id' _)
    have hxr : x.ref ≠ r := by simpa using (List.mem_filter.mp hx).2
    exact if_neg hxr
  have hperm := (perm_objects hd ho).map fun o ↦ if o.ref = r then f o else o
  rwa [List.map_cons, if_pos href, hrest] at hperm

end Objects

section Inside

variable [HoldsHandles α]

/-- The handles inside the objects of the heap. -/
def inside (h : Heap α) : List ObjectRef :=
  h.objects.flatMap fun o ↦ HoldsHandles.handles o.contents

/-- Put other contents into an object; the handles inside the old contents are moved out, and those
inside the new ones are moved in. -/
def replace (h : Heap α) (r : ObjectRef) (contents : α) : Heap α :=
  h.update r fun o ↦ { o with contents := contents }

/-- A change that leaves the contents alone leaves the handles inside as they are. -/
theorem inside_update (h : Heap α) (r : ObjectRef) {f : HeapObject α → HeapObject α}
    (hf : ∀ o, (f o).contents = o.contents) : (h.update r f).inside = h.inside := by
  rw [inside, inside, update, List.flatMap_map]
  congr 1
  funext o
  split
  · rw [hf]
  · rfl

/-- What is inside an object, and what is inside the others. -/
theorem count_inside {h : Heap α} (hd : (h.objects.map HeapObject.ref).Nodup) {r : ObjectRef}
    {o : HeapObject α} (ho : h.find? r = some o) (s : ObjectRef) :
    h.inside.count s = (HoldsHandles.handles o.contents).count s + (h.remove r).inside.count s := by
  have hperm := (perm_objects hd ho).flatMap_right fun o ↦ HoldsHandles.handles o.contents
  rw [inside, hperm.count_eq, List.flatMap_cons, List.count_append]
  rfl

/-- What is inside an object that has got other contents, and what is inside the others. -/
theorem count_inside_replace {h : Heap α} (hd : (h.objects.map HeapObject.ref).Nodup)
    {r : ObjectRef} {o : HeapObject α} (ho : h.find? r = some o) (contents : α) (s : ObjectRef) :
    (h.replace r contents).inside.count s =
      (HoldsHandles.handles contents).count s + (h.remove r).inside.count s := by
  have hperm := (perm_update hd ho fun o ↦ { o with contents := contents }).flatMap_right
    fun o ↦ HoldsHandles.handles o.contents
  rw [inside, replace, hperm.count_eq, List.flatMap_cons, List.count_append]
  rfl

end Inside

section Release

variable [HoldsHandles α]

/-- What is left when a handle to an object is released. -/
structure Released (h h' : Heap α) (r : ObjectRef) : Prop where
  /-- The object has one handle less. -/
  handleCount : h'.handleCount r + 1 = h.handleCount r
  /-- It is gone exactly if this was the last one. -/
  gone : h'.find? r = none ↔ h.handleCount r = 1
  /-- As long as it is there, the others are as they were. -/
  others : h.handleCount r ≠ 1 → ∀ s ≠ r, h'.find? s = h.find? s
  /-- The others lose no handles but those that were inside objects that are gone. -/
  inside : ∀ s ≠ r, h'.handleCount s + h.inside.count s = h.handleCount s + h'.inside.count s

variable {h : Heap α} {r : ObjectRef} {o : HeapObject α}

/-- A handle to no object is passed over. -/
theorem releaseAll_cons_of_none (ho : h.find? r = none) (pending : List ObjectRef) :
    h.releaseAll (r :: pending) = h.releaseAll pending := by
  rw [releaseAll]
  split
  · rfl
  · next o ho' => cases ho.symm.trans ho'

/-- A handle that is not the last one of its object is counted off. -/
theorem releaseAll_cons_of_more (ho : h.find? r = some o) (hmore : 1 < o.handles)
    (pending : List ObjectRef) : h.releaseAll (r :: pending) =
      (h.update r fun o ↦ { o with handles := o.handles - 1 }).releaseAll pending := by
  rw [releaseAll]
  split
  · next hnone => cases hnone.symm.trans ho
  · next o' ho' =>
    obtain rfl : o = o' := Option.some.inj (ho.symm.trans ho')
    rw [if_pos hmore]

/-- The last handle takes its object along, and the handles inside it are to be released. -/
theorem releaseAll_cons_of_last (ho : h.find? r = some o) (hlast : ¬ 1 < o.handles)
    (pending : List ObjectRef) : h.releaseAll (r :: pending) =
      (h.remove r).releaseAll (HoldsHandles.handles o.contents ++ pending) := by
  rw [releaseAll]
  split
  · next hnone => cases hnone.symm.trans ho
  · next o' ho' =>
    obtain rfl : o = o' := Option.some.inj (ho.symm.trans ho')
    rw [if_neg hlast]

/-- An object that is not there does not come back when handles are released. -/
theorem find?_releaseAll_of_none (pending : List ObjectRef) (hr : h.find? r = none) :
    (h.releaseAll pending).find? r = none := by
  induction h, pending using Heap.releaseAll.induct with
  | case1 h => rwa [releaseAll]
  | case2 h s pending ho ih =>
    rw [releaseAll_cons_of_none ho]
    exact ih hr
  | case3 h s pending o ho hmore ih =>
    rw [releaseAll_cons_of_more ho hmore]
    refine ih ?_
    rw [find?_update h s r (f := fun o ↦ { o with handles := o.handles - 1 }) fun _ ↦ rfl, hr]
    rfl
  | case4 h s pending o ho hlast ih =>
    rw [releaseAll_cons_of_last ho hlast]
    refine ih ?_
    rw [find?_remove, hr, ite_self]

/-- What is found after a handle was released that is not the last one of its object. -/
theorem find?_release_of_more (ho : h.find? r = some o) (hmore : 1 < o.handles) (s : ObjectRef) :
    (h.release r).find? s =
      (h.find? s).map fun x ↦ if x.ref = r then { x with handles := x.handles - 1 } else x := by
  rw [release, releaseAll_cons_of_more ho hmore, releaseAll]
  exact find?_update h r s fun _ ↦ rfl

/-- An object is gone after its last handle was released. -/
theorem find?_release_of_last (ho : h.find? r = some o) (hlast : ¬ 1 < o.handles) :
    (h.release r).find? r = none := by
  rw [release, releaseAll_cons_of_last ho hlast]
  exact find?_releaseAll_of_none _ (by rw [find?_remove, if_pos rfl])

end Release

section Balanced

variable [HoldsHandles α]

/-- Every object has as many handles as are owned outside of the heap and inside it, and at least
one. -/
structure Balanced (h : Heap α) (owned : List ObjectRef) : Prop where
  distinct : (h.objects.map HeapObject.ref).Nodup
  alive : ∀ o ∈ h.objects, 0 < o.handles
  count : ∀ r, h.handleCount r = owned.count r + h.inside.count r

variable {h : Heap α} {owned : List ObjectRef} {r : ObjectRef}

/-- A heap without objects is balanced. -/
theorem balanced_empty : (empty : Heap α).Balanced [] :=
  ⟨List.nodup_nil, fun o ho ↦ (by cases ho), fun r ↦ rfl⟩

/-- Who owns the handles does not matter, only how many there are. -/
theorem Balanced.congr (hb : h.Balanced owned) {owned' : List ObjectRef}
    (hcount : ∀ r, owned'.count r = owned.count r) : h.Balanced owned' :=
  ⟨hb.distinct, hb.alive, fun r ↦ by rw [hcount, hb.count]⟩

/-- An object is there exactly if it has a handle. -/
theorem Balanced.isSome_find?_iff (hb : h.Balanced owned) (r : ObjectRef) :
    (h.find? r).isSome = true ↔ 0 < h.handleCount r := by
  cases ho : h.find? r with
  | none => simp [handleCount, ho]
  | some o => simpa [handleCount, ho] using hb.alive o (of_find?_eq_some ho).1

/-- An object that somebody owns a handle to is there. -/
theorem Balanced.isSome_find? (hb : h.Balanced owned) (hr : r ∈ owned) :
    (h.find? r).isSome = true := by
  have hpos : 0 < owned.count r := List.count_pos_iff.mpr hr
  rw [hb.isSome_find?_iff, hb.count]
  omega

omit [HoldsHandles α] in
/-- The objects stay distinct when one of them is changed. -/
theorem map_ref_update (h : Heap α) (r : ObjectRef) {f : HeapObject α → HeapObject α}
    (hf : ∀ o, (f o).ref = o.ref) :
    (h.update r f).objects.map HeapObject.ref = h.objects.map HeapObject.ref := by
  rw [update, List.map_map]
  congr 1
  funext o
  rw [Function.comp]
  split
  · exact hf o
  · rfl

/-- Changing the number of handles of an object keeps a heap balanced with as many more or less. -/
theorem Balanced.update (hb : h.Balanced owned) {owned' : List ObjectRef} {o : HeapObject α}
    (ho : h.find? r = some o) {g : Nat → Nat} (hpos : 0 < g o.handles)
    (hcount : g o.handles + owned.count r = o.handles + owned'.count r)
    (hother : ∀ s ≠ r, owned'.count s = owned.count s) :
    (h.update r fun o ↦ { o with handles := g o.handles }).Balanced owned' := by
  refine ⟨by rw [map_ref_update] <;> simp [hb.distinct], fun x hx ↦ ?_, fun s ↦ ?_⟩
  · obtain ⟨y, hy, rfl⟩ := List.mem_map.mp hx
    split
    · next href =>
      have hyo : y = o := by
        obtain ⟨hm, horef⟩ := of_find?_eq_some ho
        exact List.inj_on_of_nodup_map hb.distinct hy hm (href.trans horef.symm)
      subst hyo
      exact hpos
    · exact hb.alive y hy
  · have hr := hb.count r
    simp only [handleCount, ho, Option.map_some, Option.getD_some] at hr
    rw [handleCount_update h r s (f := fun o ↦ { o with handles := g o.handles }) fun _ ↦ rfl,
      inside_update h r (f := fun o ↦ { o with handles := g o.handles }) fun _ ↦ rfl]
    by_cases hs : s = r
    · subst hs
      rw [if_pos rfl, ho, Option.map_some, Option.getD_some]
      show g o.handles = _
      omega
    · rw [if_neg hs, hb.count, hother s hs]

/-- A new object takes over the handles inside its contents, and has one handle. -/
theorem Balanced.insert {contents : α} (hr : h.find? r = none)
    (hb : h.Balanced (HoldsHandles.handles contents ++ owned)) :
    (h.insert r contents).Balanced (r :: owned) := by
  have hdead : h.handleCount r = 0 := by simp [handleCount, hr]
  refine ⟨?_, fun o ho ↦ ?_, fun s ↦ ?_⟩
  · exact List.nodup_cons.mpr ⟨find?_eq_none_iff.mp hr, hb.distinct⟩
  · rcases List.mem_cons.mp ho with rfl | ho
    · exact Nat.one_pos
    · exact hb.alive o ho
  · have hcount := hb.count s
    have hinside : (h.insert r contents).inside = HoldsHandles.handles contents ++ h.inside := rfl
    rw [hinside, List.count_append]
    rw [List.count_append] at hcount
    by_cases hs : s = r
    · subst hs
      rw [handleCount_insert, List.count_cons_self]
      omega
    · have hother : (h.insert r contents).handleCount s = h.handleCount s := by
        rw [handleCount, handleCount, find?_insert_of_ne h contents (Ne.symm hs)]
      rw [hother, List.count_cons_of_ne (Ne.symm hs)]
      omega

/-- A retained handle is one more. -/
theorem Balanced.retain (hb : h.Balanced owned) (hr : (h.find? r).isSome = true) :
    (h.retain r).Balanced (r :: owned) := by
  obtain ⟨o, ho⟩ := Option.isSome_iff_exists.mp hr
  refine hb.update (g := (· + 1)) ho (Nat.succ_pos _) ?_ fun s hs ↦ ?_
  · rw [List.count_cons_self]
    omega
  · exact List.count_cons_of_ne (Ne.symm hs)

/-- When the last handle of an object is released, the object is gone and leaves the handles inside
it. -/
theorem Balanced.remove {o : HeapObject α} (hb : h.Balanced (r :: owned)) (ho : h.find? r = some o)
    (hlast : ¬ 1 < o.handles) :
    (h.remove r).Balanced (HoldsHandles.handles o.contents ++ owned) := by
  have hsub : (h.remove r).objects.Sublist h.objects := List.filter_sublist
  refine ⟨hb.distinct.sublist (hsub.map _), fun x hx ↦ hb.alive x (hsub.subset hx), fun s ↦ ?_⟩
  have hinside := count_inside hb.distinct ho s
  have hcount := hb.count s
  rw [List.count_append]
  by_cases hs : s = r
  · subst hs
    have hdead : (h.remove s).handleCount s = 0 := by simp [handleCount, find?_remove]
    have hone : h.handleCount s = o.handles := by simp [handleCount, ho]
    rw [List.count_cons_self] at hcount
    omega
  · have hother : (h.remove r).handleCount s = h.handleCount s := by
      rw [handleCount, handleCount, find?_remove, if_neg hs]
    rw [List.count_cons_of_ne (Ne.symm hs)] at hcount
    omega

/-- Released handles are no longer owned. -/
theorem Balanced.releaseAll {pending : List ObjectRef} (hb : h.Balanced (pending ++ owned)) :
    (h.releaseAll pending).Balanced owned := by
  induction h, pending using Heap.releaseAll.induct with
  | case1 h => simpa [Heap.releaseAll] using hb
  | case2 h r pending ho ih =>
    have hsome := hb.isSome_find? (List.mem_append_left _ (List.mem_cons_self ..))
    simp [ho] at hsome
  | case3 h r pending o ho hmore ih =>
    rw [releaseAll_cons_of_more ho hmore]
    refine ih (hb.update (g := (· - 1)) ho (by omega) ?_ fun s hs ↦ ?_)
    · rw [List.cons_append, List.count_cons_self]
      omega
    · exact (List.count_cons_of_ne (Ne.symm hs)).symm
  | case4 h r pending o ho hlast ih =>
    rw [releaseAll_cons_of_last ho hlast]
    apply ih
    rw [List.append_assoc]
    exact hb.remove ho hlast

/-- A released handle is no longer owned. -/
theorem Balanced.release (hb : h.Balanced (r :: owned)) : (h.release r).Balanced owned := by
  have hpending : h.Balanced ([r] ++ owned) := hb
  exact hpending.releaseAll

/-- An owned handle that is released is one less of its object. -/
theorem Balanced.released (hb : h.Balanced (r :: owned)) : h.Released (h.release r) r := by
  have hafter := hb.release
  obtain ⟨o, ho⟩ := Option.isSome_iff_exists.mp (hb.isSome_find? (List.mem_cons_self ..))
  have hpos : 0 < o.handles := hb.alive o (of_find?_eq_some ho).1
  have hcount : h.handleCount r = o.handles := by simp [handleCount, ho]
  have hinside (s : ObjectRef) (hs : s ≠ r) : (h.release r).handleCount s + h.inside.count s =
      h.handleCount s + (h.release r).inside.count s := by
    rw [hafter.count, hb.count, List.count_cons_of_ne (Ne.symm hs)]
    omega
  by_cases hmore : 1 < o.handles
  · have hfind := find?_release_of_more ho hmore
    refine ⟨?_, ?_, fun _ s hs ↦ ?_, hinside⟩
    · rw [handleCount, hfind r, ho, hcount]
      simp only [Option.map_some, Option.getD_some, (of_find?_eq_some ho).2, if_true]
      omega
    · rw [hfind r, ho, hcount, Option.map_some]
      exact iff_of_false (fun h ↦ by cases h) (by omega)
    · rw [hfind s]
      cases hx : h.find? s with
      | none => rfl
      | some x => rw [Option.map_some, if_neg ((of_find?_eq_some hx).2 ▸ hs)]
  · have hgone := find?_release_of_last ho hmore
    have hone : h.handleCount r = 1 := by omega
    refine ⟨?_, iff_of_true hgone hone, fun hne ↦ absurd hone hne, hinside⟩
    rw [hone, handleCount, hgone]
    rfl

/-- Handles that are moved into an object and out of it change their owners only. -/
theorem Balanced.replace {o : HeapObject α} (ho : h.find? r = some o) {contents : α}
    {given got : List ObjectRef} (hb : h.Balanced (given ++ owned))
    (hmoved : (HoldsHandles.handles contents ++ got).Perm
      (HoldsHandles.handles o.contents ++ given)) :
    (h.replace r contents).Balanced (got ++ owned) := by
  refine ⟨?_, fun x hx ↦ ?_, fun s ↦ ?_⟩
  · rw [Heap.replace, map_ref_update]
    · exact hb.distinct
    · exact fun _ ↦ rfl
  · obtain ⟨y, hy, rfl⟩ := List.mem_map.mp hx
    have hpos := hb.alive y hy
    split
    · exact hpos
    · exact hpos
  · have hcount := hb.count s
    have hinside := count_inside hb.distinct ho s
    have hinside' := count_inside_replace hb.distinct ho contents s
    have hperm := hmoved.count_eq s
    have hsame : (h.replace r contents).handleCount s = h.handleCount s := by
      rw [Heap.replace,
        handleCount_update h r s (f := fun o ↦ { o with contents := contents }) fun _ ↦ rfl]
      split
      · next hs =>
        subst hs
        rfl
      · rfl
    simp only [List.count_append] at hcount hperm ⊢
    omega

end Balanced

end Invocation.Heap
