import Invocation.Config
import Invocation.Proofs.Text

/-!
# Reading the name of a backend

A text names a backend if, without the white space at its ends, it is one of the names of the
backend but for the case of ASCII letters (`BackendKind.Spells`). Reading a text gives exactly the
backend it names, and every other text is an error that quotes it (`BackendKind.parse_exact`), so
that white space inside, or a character that is only equivalent to a letter in Unicode, is not
accepted. The configuration that is read from the environment follows, with one warning for a text
that names no backend.
-/

namespace Invocation

open Text (CaseVariant)
open Text.Unicode (isBlank trim Trims trims_iff)

namespace BackendKind

/-- The names that a backend is known by. -/
def names : BackendKind → List String
  | .closure => ["closure"]
  | .machine => ["cranelift", "jit"]

/-- A text names a backend: white space at its ends and the case of ASCII letters aside, it is one
of its names. -/
def Spells (text : String) (kind : BackendKind) : Prop :=
  ∃ core, Trims text.toList core ∧ ∃ name ∈ kind.names, CaseVariant core name.toList

/-- A backend is known by the name that is shown for it. -/
theorem name_mem_names (kind : BackendKind) : kind.name ∈ kind.names := by
  cases kind <;> decide

/-- Names are made of lower-case ASCII letters. -/
theorem isLower_of_mem_names {kind : BackendKind} {name : String} (h : name ∈ kind.names)
    {c : Char} (hc : c ∈ name.toList) : 97 ≤ c.toNat ∧ c.toNat ≤ 122 := by
  have letters : (kind.names.all fun name ↦ name.toList.all fun c ↦
      97 ≤ c.toNat && c.toNat ≤ 122) = true := by
    cases kind <;> decide
  simpa using List.all_eq_true.mp (List.all_eq_true.mp letters name h) c hc

/-- A name is its own lower case. -/
theorem map_toLower_of_mem_names {kind : BackendKind} {name : String} (h : name ∈ kind.names) :
    name.toList.map Char.toLower = name.toList := by
  refine (List.map_congr_left fun c hc ↦ ?_).trans (List.map_id' _)
  have hlower := isLower_of_mem_names h hc
  rw [← Char.toNat_inj, Text.toNat_toLower, if_neg (by omega)]

/-- What is a name but for its case is made of ASCII letters. -/
theorem isLetter_of_caseVariant {kind : BackendKind} {name : String} {core : List Char}
    (h : name ∈ kind.names) (hcore : CaseVariant core name.toList) {c : Char} (hc : c ∈ core) :
    (65 ≤ c.toNat ∧ c.toNat ≤ 90) ∨ (97 ≤ c.toNat ∧ c.toNat ≤ 122) := by
  rw [← Text.map_toLower_eq_iff, map_toLower_of_mem_names h] at hcore
  have hlower := isLower_of_mem_names h (hcore ▸ List.mem_map_of_mem hc)
  rw [Text.toNat_toLower] at hlower
  split at hlower
  · next hupper => exact .inl hupper
  · exact .inr hlower

/-- What is a name but for its case has no white space in it. -/
theorem isBlank_of_caseVariant {kind : BackendKind} {name : String} {core : List Char}
    (h : name ∈ kind.names) (hcore : CaseVariant core name.toList) {c : Char} (hc : c ∈ core) :
    isBlank c = false := by
  have hletter := isLetter_of_caseVariant h hcore hc
  simp only [isBlank, Text.Unicode.blankRanges, List.any_cons, List.any_nil, Bool.or_false,
    Bool.or_eq_false_iff, Bool.and_eq_false_iff, decide_eq_false_iff_not]
  omega

/-- A name with any case and any white space around it names the backend. -/
theorem spells_padded {kind : BackendKind} {name : String} {before word after : List Char}
    (h : name ∈ kind.names) (hword : CaseVariant word name.toList)
    (hbefore : ∀ c ∈ before, isBlank c = true) (hafter : ∀ c ∈ after, isBlank c = true) :
    Spells (String.ofList (before ++ word ++ after)) kind := by
  refine ⟨word, ⟨⟨before, after, String.toList_ofList, hbefore, hafter⟩, fun c hc ↦ ?_,
    fun c hc ↦ ?_⟩, name, h, hword⟩
  · exact isBlank_of_caseVariant h hword (List.mem_of_mem_head? hc)
  · exact isBlank_of_caseVariant h hword (List.mem_of_mem_getLast? hc)

/-- A lower-case text is looked up among the names of all backends. -/
theorem ofLowerCase?_eq_some_iff (name : String) (kind : BackendKind) :
    ofLowerCase? name = some kind ↔ name ∈ kind.names := by
  unfold ofLowerCase?
  by_cases hc : name = "closure"
  · subst hc
    cases kind <;> simp [names]
  · rw [if_neg hc]
    by_cases hm : name = "cranelift" ∨ name = "jit"
    · rw [if_pos hm]
      cases kind <;> simp [names, hc, hm]
    · rw [if_neg hm]
      cases kind with
      | closure => simp [names, hc]
      | machine => simpa [names] using hm

/-- What is looked up for a text is a name exactly if the trimmed text is a variant of it. -/
theorem normalize_eq_iff {kind : BackendKind} {name : String} (h : name ∈ kind.names)
    (text : String) : normalize text = name ↔ CaseVariant (trim text.toList) name.toList := by
  rw [← Text.map_toLower_eq_iff, map_toLower_of_mem_names h, normalize, ← String.toList_inj,
    String.toList_ofList]

/-- A text names a backend exactly if it is trimmed to a variant of one of its names. -/
theorem spells_iff (text : String) (kind : BackendKind) :
    Spells text kind ↔ ∃ name ∈ kind.names, CaseVariant (trim text.toList) name.toList := by
  simp only [Spells, trims_iff, exists_eq_left]

/-- A text that is looked up is found exactly if it names the backend. -/
theorem lookup_eq_some_iff (text : String) (kind : BackendKind) :
    ofLowerCase? (normalize text) = some kind ↔ Spells text kind := by
  rw [ofLowerCase?_eq_some_iff, spells_iff]
  constructor
  · intro h
    exact ⟨normalize text, h, (normalize_eq_iff h text).mp rfl⟩
  · rintro ⟨name, h, hvariant⟩
    rwa [(normalize_eq_iff h text).mpr hvariant]

/-- Reading a text gives exactly the backend that it names. -/
theorem parse_eq_ok_iff (text : String) (kind : BackendKind) :
    parse text = .ok kind ↔ Spells text kind := by
  rw [← lookup_eq_some_iff, parse]
  cases ofLowerCase? (normalize text) <;> simp

/-- Reading a text fails exactly if it names no backend, with an error about that very text. -/
theorem parse_eq_error_iff (text : String) (e : UnknownBackend) :
    parse text = .error e ↔ e = ⟨text⟩ ∧ ∀ kind, ¬ Spells text kind := by
  simp only [← lookup_eq_some_iff, parse]
  cases ofLowerCase? (normalize text) <;> simp [eq_comm]

/-- A text that would name a backend but for white space inside, or a character beyond ASCII, names
none. -/
theorem not_spells_of_mem {text : String} {core : List Char} {c : Char}
    (hcore : Trims text.toList core) (hc : c ∈ core) (hbad : isBlank c = true ∨ 128 ≤ c.toNat)
    (kind : BackendKind) : ¬ Spells text kind := by
  rw [spells_iff, ← (trims_iff _ _).mp hcore]
  rintro ⟨name, h, hvariant⟩
  rcases hbad with hblank | hwide
  · rw [isBlank_of_caseVariant h hvariant hc] at hblank
    cases hblank
  · have hletter := isLetter_of_caseVariant h hvariant hc
    omega

end BackendKind

/-- What the environment selects: the default if nothing is said, the backend that the text names,
or else the default with one warning about the text. -/
theorem Config.ofVariable_cases (text : String) :
    (∃ kind, BackendKind.parse text = .ok kind ∧ ofVariable (some text) = (⟨kind⟩, [])) ∨
    ∃ e warning, BackendKind.parse text = .error e ∧
      ofVariable (some text) = (default, [warning]) ∧ warning.level = .warn ∧
      warning = .unknownBackend environmentVariable text e.message := by
  cases h : BackendKind.parse text with
  | ok kind => exact .inl ⟨kind, rfl, by rw [ofVariable, h]⟩
  | error e => exact .inr ⟨e, _, rfl, by rw [ofVariable, h], rfl, rfl⟩

namespace BackendKind

/-- Names of backends are read exactly: a text is read as the backend it names, and any other is an
error that quotes it as it is. So all ways to write the name of a backend in upper and lower case,
with white space around it, give the backend back, and nothing with white space inside or beyond
ASCII is read. The environment selects a backend in that way, with the default where nothing is
said, and with the default and one warning where no backend is named. -/
theorem parse_exact :
    (∀ (text : String) (kind : BackendKind), parse text = .ok kind ↔ Spells text kind) ∧
    (∀ (text : String) (e : UnknownBackend),
      parse text = .error e ↔ e.text = text ∧ ∀ kind, ¬ Spells text kind) ∧
    (∀ e : UnknownBackend, e.message =
      "Unknown thunk backend '" ++ e.text ++ "' (expected 'closure' or 'cranelift')") ∧
    (∀ (kind : BackendKind) (before word after : List Char), CaseVariant word kind.name.toList →
      (∀ c ∈ before, isBlank c = true) → (∀ c ∈ after, isBlank c = true) →
      parse (String.ofList (before ++ word ++ after)) = .ok kind) ∧
    (∀ (text : String) (core : List Char), Trims text.toList core →
      (∃ c ∈ core, isBlank c = true ∨ 128 ≤ c.toNat) → parse text = .error ⟨text⟩) ∧
    Config.ofVariable none = (Config.default, []) ∧
    ∀ text : String,
      (∃ kind, parse text = .ok kind ∧ Config.ofVariable (some text) = (⟨kind⟩, [])) ∨
      ∃ e warning, parse text = .error e ∧
        Config.ofVariable (some text) = (Config.default, [warning]) ∧ warning.level = .warn ∧
        warning = .unknownBackend Config.environmentVariable text e.message := by
  refine ⟨parse_eq_ok_iff, fun text e ↦ ?_, fun e ↦ rfl,
    fun kind before word after hword hbefore hafter ↦ ?_, fun text core hcore ⟨c, hc, hbad⟩ ↦ ?_,
    rfl, Config.ofVariable_cases⟩
  · obtain ⟨quoted⟩ := e
    rw [parse_eq_error_iff, UnknownBackend.mk.injEq]
  · exact (parse_eq_ok_iff _ _).mpr (spells_padded (name_mem_names kind) hword hbefore hafter)
  · exact (parse_eq_error_iff _ _).mpr ⟨rfl, not_spells_of_mem hcore hc hbad⟩

/-- White space of two kinds around a name in upper case, and a long s in place of an s. -/
example : parse "\u2003JIT\n" = .ok .machine ∧ parse "clo\u017Fure" = .error ⟨"clo\u017Fure"⟩ := by
  decide

end BackendKind
end Invocation
