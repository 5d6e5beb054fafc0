import Mathlib.Data.List.Forall2
import Mathlib.Data.List.TakeWhile
import Invocation.Text.Unicode.Blank

/-!
# Taking texts apart

What joining, trimming and lower case leave of a text. Entries that are joined with a separator they
do not contain are told apart again (`intercalate_inj`), what is left of a text without the white
space at its ends is what `trim` gives (`Unicode.trims_iff`), and texts have the same lower case
exactly if they differ in the case of ASCII letters only (`map_toLower_eq_iff`).
-/

namespace Invocation.Text

section Separators

variable {α : Type}

/-- A text is split in one way only at the last occurrence of a separator. -/
theorem append_cons_inj_of_notMem_right {x : α} {a b c d : List α} (hb : x ∉ b) (hd : x ∉ d)
    (h : a ++ x :: b = c ++ x :: d) : a = c ∧ b = d := by
  rcases List.append_eq_append_iff.mp h with ⟨e, rfl, he⟩ | ⟨e, rfl, he⟩
  · cases e with
    | nil => exact ⟨(List.append_nil a).symm, (List.cons.inj he).2⟩
    | cons y e =>
      rw [List.cons_append, List.cons.injEq] at he
      exact absurd (he.2 ▸ List.mem_append_right e (List.mem_cons_self ..)) hb
  · cases e with
    | nil => exact ⟨List.append_nil c, (List.cons.inj he).2.symm⟩
    | cons y e =>
      rw [List.cons_append, List.cons.injEq] at he
      exact absurd (he.2 ▸ List.mem_append_right e (List.mem_cons_self ..)) hd

/-- A text is split in one way only at the first occurrence of a separator. -/
theorem append_cons_inj_of_notMem_left {x : α} {a b c d : List α} (ha : x ∉ a) (hc : x ∉ c)
    (h : a ++ x :: b = c ++ x :: d) : a = c ∧ b = d := by
  have hr : b.reverse ++ x :: a.reverse = d.reverse ++ x :: c.reverse := by
    simpa using congrArg List.reverse h
  obtain ⟨hbd, hac⟩ :=
    append_cons_inj_of_notMem_right (by simpa using ha) (by simpa using hc) hr
  exact ⟨List.reverse_injective hac, List.reverse_injective hbd⟩

/-- Nothing is the joining of no entries only, if no entry is empty. -/
theorem intercalate_eq_nil_iff {sep : List α} {l : List (List α)} (hl : ∀ t ∈ l, t ≠ []) :
    sep.intercalate l = [] ↔ l = [] := by
  cases l with
  | nil => simp
  | cons t l =>
    have ht := hl t (List.mem_cons_self ..)
    cases l <;> simp [List.intercalate_cons_cons, ht]

/-- Entries that are not empty and are free of the character the separator begins with are told
apart when they are joined. -/
theorem intercalate_inj {x : α} {sep : List α} {l m : List (List α)}
    (hl : ∀ t ∈ l, x ∉ t ∧ t ≠ []) (hm : ∀ t ∈ m, x ∉ t ∧ t ≠ [])
    (h : (x :: sep).intercalate l = (x :: sep).intercalate m) : l = m := by
  have separated (t u : List α) (l : List (List α)) : x ∈ (x :: sep).intercalate (t :: u :: l) := by
    simp [List.intercalate_cons_cons]
  induction l generalizing m with
  | nil => exact ((intercalate_eq_nil_iff fun t ht ↦ (hm t ht).2).mp h.symm).symm
  | cons t l ih =>
    have ht := hl t (List.mem_cons_self ..)
    cases m with
    | nil => exact (intercalate_eq_nil_iff fun t ht ↦ (hl t ht).2).mp h
    | cons u m =>
      have hu := hm u (List.mem_cons_self ..)
      -- The first entries end at the first separator, if there is one.
      cases l with
      | nil =>
        cases m with
        | nil => simpa using h
        | cons u' m => exact absurd (h ▸ separated u u' m) (by simpa using ht.1)
      | cons t' l =>
        cases m with
        | nil => exact absurd (h ▸ separated t t' l) (by simpa using hu.1)
        | cons u' m =>
          simp only [List.intercalate_cons_cons, List.append_assoc, List.cons_append] at h
          obtain ⟨rfl, hrest⟩ := append_cons_inj_of_notMem_left ht.1 hu.1 h
          have htail := ih (fun s hs ↦ hl s (List.mem_cons_of_mem _ hs))
            (fun s hs ↦ hm s (List.mem_cons_of_mem _ hs)) (List.append_cancel_left hrest)
          rw [htail]

/-- What is neither in an entry nor in the separator does not come in when entries are joined. -/
theorem notMem_intercalate {y : α} {sep : List α} {l : List (List α)} (hsep : y ∉ sep)
    (hl : ∀ t ∈ l, y ∉ t) : y ∉ sep.intercalate l := by
  induction l with
  | nil => simp
  | cons t l ih =>
    have ht := hl t (List.mem_cons_self ..)
    have hrest := ih fun u hu ↦ hl u (List.mem_cons_of_mem _ hu)
    cases l with
    | nil => simpa using ht
    | cons u l => simp [List.intercalate_cons_cons, ht, hsep, hrest]

end Separators

section Letters

/-- The same character, or one ASCII letter in its two cases. -/
def SameLetter (c d : Char) : Prop :=
  c = d ∨ ∃ k < 26, (c.toNat = 65 + k ∧ d.toNat = 97 + k) ∨ (c.toNat = 97 + k ∧ d.toNat = 65 + k)

/-- Texts of the same characters, but for the case of ASCII letters. -/
def CaseVariant (cs ds : List Char) : Prop := List.Forall₂ SameLetter cs ds

/-- The code of a character in lower case: that of an ASCII letter, or else the same. -/
theorem toNat_toLower (c : Char) :
    c.toLower.toNat = if 65 ≤ c.toNat ∧ c.toNat ≤ 90 then c.toNat + 32 else c.toNat := by
  have upper : (c.val ≥ 'A'.val ∧ c.val ≤ 'Z'.val) ↔ 65 ≤ c.toNat ∧ c.toNat ≤ 90 := Iff.rfl
  unfold Char.toLower
  by_cases h : 65 ≤ c.toNat ∧ c.toNat ≤ 90
  · rw [dif_pos (upper.mpr h), if_pos h]
    show (c.val + ('a'.val - 'A'.val)).toNat = _
    rw [UInt32.toNat_add]
    show (c.toNat + 32) % _ = _
    omega
  · rw [dif_neg (mt upper.mp h), if_neg h]

/-- Characters have the same lower case exactly if they are the same letter. -/
theorem toLower_eq_toLower_iff (c d : Char) : c.toLower = d.toLower ↔ SameLetter c d := by
  rw [← Char.toNat_inj, toNat_toLower, toNat_toLower, SameLetter, ← Char.toNat_inj]
  constructor
  · intro h
    by_cases hc : 65 ≤ c.toNat ∧ c.toNat ≤ 90 <;> by_cases hd : 65 ≤ d.toNat ∧ d.toNat ≤ 90
    · rw [if_pos hc, if_pos hd] at h
      exact .inl (by omega)
    · rw [if_pos hc, if_neg hd] at h
      exact .inr ⟨c.toNat - 65, by omega, .inl (by omega)⟩
    · rw [if_neg hc, if_pos hd] at h
      exact .inr ⟨d.toNat - 65, by omega, .inr (by omega)⟩
    · rw [if_neg hc, if_neg hd] at h
      exact .inl h
  · rintro (h | ⟨k, hk, h | h⟩)
    · rw [h]
    · split <;> split <;> omega
    · split <;> split <;> omega

/-- Texts have the same lower case exactly if they are case variants. -/
theorem map_toLower_eq_iff (cs ds : List Char) :
    cs.map Char.toLower = ds.map Char.toLower ↔ CaseVariant cs ds := by
  rw [← List.forall₂_eq_eq_eq, List.forall₂_map_left_iff, List.forall₂_map_right_iff]
  simp only [toLower_eq_toLower_iff, CaseVariant]

end Letters

namespace Unicode

/-- One text is what is left of another without the white space at its ends. -/
structure Trims (cs core : List Char) : Prop where
  /-- Nothing but white space is taken away. -/
  padded : ∃ before after, cs = before ++ core ++ after ∧ (∀ c ∈ before, isBlank c = true) ∧
    ∀ c ∈ after, isBlank c = true
  /-- No white space is left at the beginning. -/
  first : ∀ c ∈ core.head?, isBlank c = false
  /-- No white space is left at the end. -/
  last : ∀ c ∈ core.getLast?, isBlank c = false

/-- A text that begins with something else is not changed by taking away white space. -/
private theorem dropWhile_isBlank {cs : List Char} (h : ∀ c ∈ cs.head?, isBlank c = false) :
    cs.dropWhile isBlank = cs := by
  cases cs with
  | nil => rfl
  | cons c cs => rw [List.dropWhile_cons_of_neg (by simp [h c rfl])]

/-- What is left when white space is taken away begins with something else. -/
private theorem head?_dropWhile_isBlank (cs : List Char) :
    ∀ c ∈ (cs.dropWhile isBlank).head?, isBlank c = false := by
  intro c hc
  have h := List.head?_dropWhile_not isBlank cs
  rwa [Option.mem_def.mp hc] at h

/-- A text is trimmed to what is left of it. -/
private theorem Trims.eq_trim {cs core : List Char} (h : Trims cs core) : core = trim cs := by
  obtain ⟨⟨before, after, rfl, hbefore, hafter⟩, hfirst, hlast⟩ := h
  rw [trim, List.append_assoc, List.dropWhile_append_of_pos hbefore]
  -- If nothing is left, the white space after it goes with that before it.
  cases core with
  | nil =>
    have hnil : after.dropWhile isBlank = [] := List.dropWhile_eq_nil_iff.mpr hafter
    rw [List.nil_append, hnil]
    rfl
  | cons c core =>
    have hcore : ((c :: core).reverse.dropWhile isBlank).reverse = c :: core := by
      rw [dropWhile_isBlank, List.reverse_reverse]
      rwa [List.head?_reverse]
    have hfront : (c :: core ++ after).dropWhile isBlank = c :: core ++ after :=
      dropWhile_isBlank hfirst
    rw [hfront, List.reverse_append, List.dropWhile_append_of_pos (by simpa using hafter), hcore]

/-- What a text is trimmed to is left of it. -/
private theorem trims_trim (cs : List Char) : Trims cs (trim cs) := by
  let rest := cs.dropWhile isBlank
  let after := (rest.reverse.takeWhile isBlank).reverse
  have hrest : rest = trim cs ++ after := by
    rw [trim, ← List.reverse_append, List.takeWhile_append_dropWhile, List.reverse_reverse]
  refine ⟨⟨cs.takeWhile isBlank, after, ?_, fun c ↦ List.mem_takeWhile_imp, fun c hc ↦ ?_⟩,
    fun c hc ↦ ?_, fun c hc ↦ ?_⟩
  · rw [List.append_assoc, ← hrest, List.takeWhile_append_dropWhile]
  · exact List.mem_takeWhile_imp (List.mem_reverse.mp hc)
  · apply head?_dropWhile_isBlank cs
    show c ∈ rest.head?
    rw [hrest, List.head?_append, Option.mem_def.mp hc]
    rfl
  · rw [trim, List.getLast?_reverse] at hc
    exact head?_dropWhile_isBlank _ c hc

/-- What is left of a text is what `trim` gives. -/
theorem trims_iff (cs core : List Char) : Trims cs core ↔ core = trim cs :=
  ⟨Trims.eq_trim, fun h ↦ h ▸ trims_trim cs⟩

end Unicode

end Invocation.Text
