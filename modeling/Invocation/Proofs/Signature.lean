import Mathlib.Data.List.Nodup
import Invocation.Proofs.Text
import Invocation.Signature

/-!
# Reading signatures

The text of a signature says all that is declared, up to receivers of the same name
(`Signature.text_eq_iff`). The name of a receiver is free text and comes first, so the text is read
from its end: the result follows the last space, the parameter list follows the last parenthesis
that is opened, and what is left is the receiver. No name of a type, other than that of the
receiver, holds any of these characters.
-/

namespace Invocation

namespace ParamType

/-- All parameter types. -/
def all : List ParamType := .reference :: ValueType.all.map .value

/-- There are no others. -/
theorem mem_all (p : ParamType) : p ∈ all := by
  cases p with
  | value type => cases type <;> decide
  | reference => decide

/-- The name of a parameter type is made of letters and digits. -/
theorem isAlphanum_of_mem_name {p : ParamType} {c : Char} (h : c ∈ p.name.toList) :
    c.isAlphanum = true := by
  have names : (all.all fun p ↦ p.name.toList.all Char.isAlphanum) = true := by decide
  exact List.all_eq_true.mp (List.all_eq_true.mp names p (mem_all p)) c h

/-- No parameter type has the empty name. -/
theorem name_ne_empty (p : ParamType) : p.name.toList ≠ [] := by
  have names : ∀ p ∈ all, p.name.toList ≠ [] := by decide
  exact names p (mem_all p)

/-- Parameter types have different names. -/
theorem name_inj {p q : ParamType} (h : p.name = q.name) : p = q := by
  have names : (all.map name).Nodup := by decide
  exact List.inj_on_of_nodup_map names (mem_all p) (mem_all q) h

end ParamType

namespace ReturnType

/-- All return types. -/
def all : List ReturnType := .void :: .reference :: ValueType.all.map .value

/-- There are no others. -/
theorem mem_all (r : ReturnType) : r ∈ all := by
  cases r with
  | value type => cases type <;> decide
  | void | reference => decide

/-- The name of a return type is made of letters and digits. -/
theorem isAlphanum_of_mem_name {r : ReturnType} {c : Char} (h : c ∈ r.name.toList) :
    c.isAlphanum = true := by
  have names : (all.all fun r ↦ r.name.toList.all Char.isAlphanum) = true := by decide
  exact List.all_eq_true.mp (List.all_eq_true.mp names r (mem_all r)) c h

/-- Return types have different names. -/
theorem name_inj {r s : ReturnType} (h : r.name = s.name) : r = s := by
  have names : (all.map name).Nodup := by decide
  exact List.inj_on_of_nodup_map names (mem_all r) (mem_all s) h

end ReturnType

/-- Methods of two kinds are alike in what they take: no receiver, or receivers of the same name. -/
inductive MethodKind.Alike : MethodKind → MethodKind → Prop
  | static : Alike .static .static
  | instance {a b : HostType} (name : a.name = b.name) : Alike (.instance a) (.instance b)

namespace Signature

/-- The text between the parentheses. -/
def paramsText (s : Signature) : List Char :=
  [',', ' '].intercalate (s.params.map fun p ↦ p.name.toList)

/-- The characters of the text of a signature. -/
theorem toList_text (s : Signature) :
    s.text.toList =
      (s.receiverText.toList ++ '(' :: s.paramsText ++ [')', ' ', '-', '>']) ++
        ' ' :: s.ret.name.toList := by
  simp [text, paramsText, Function.comp_def]

/-- The names of parameters are told apart. -/
theorem params_eq_of_paramsText_eq {s t : Signature} (h : s.paramsText = t.paramsText) :
    s.params = t.params := by
  have names (ps : List ParamType) : ∀ n ∈ ps.map fun p ↦ p.name.toList, ',' ∉ n ∧ n ≠ [] := by
    intro n hn
    obtain ⟨p, -, rfl⟩ := List.mem_map.mp hn
    exact ⟨fun hc ↦ absurd (ParamType.isAlphanum_of_mem_name hc) (by decide), p.name_ne_empty⟩
  have hnames := Text.intercalate_inj (names s.params) (names t.params) h
  exact (List.map_inj_right fun p q hpq ↦ ParamType.name_inj (String.toList_inj.mp hpq)).mp hnames

/-- No parenthesis is opened between the parentheses. -/
theorem notMem_paramsText (s : Signature) : '(' ∉ s.paramsText := by
  refine Text.notMem_intercalate (by decide) fun n hn ↦ ?_
  obtain ⟨p, -, rfl⟩ := List.mem_map.mp hn
  exact fun hc ↦ absurd (ParamType.isAlphanum_of_mem_name hc) (by decide)

/-- There is no space in the result. -/
theorem notMem_retName (s : Signature) : ' ' ∉ s.ret.name.toList :=
  fun hc ↦ absurd (ReturnType.isAlphanum_of_mem_name hc) (by decide)

/-- Before the same parameters, receivers are written in the same way exactly if they are alike. -/
theorem receiverText_eq_iff {s t : Signature} (hparams : s.params = t.params) :
    s.receiverText = t.receiverText ↔ s.kind.Alike t.kind := by
  unfold receiverText
  rw [hparams]
  cases hs : s.kind with
  | static =>
    cases ht : t.kind with
    | static => exact iff_of_true rfl .static
    | «instance» b =>
      refine iff_of_false (fun h ↦ ?_) (fun h ↦ nomatch h)
      simpa using congrArg String.toList h
  | «instance» a =>
    cases ht : t.kind with
    | static =>
      refine iff_of_false (fun h ↦ ?_) (fun h ↦ nomatch h)
      simpa using congrArg String.toList h
    | «instance» b =>
      constructor
      · intro h
        refine .instance (String.toList_inj.mp ?_)
        simpa using congrArg String.toList h
      · rintro (_ | name)
        simp only [name]

/-- Two signatures have the same text exactly if they declare the same parameters and the same
result, and are both static or have receivers of the same name. -/
theorem text_eq_iff (s t : Signature) :
    s.text = t.text ↔ s.params = t.params ∧ s.ret = t.ret ∧ s.kind.Alike t.kind := by
  constructor
  · intro h
    have htext : s.text.toList = t.text.toList := congrArg String.toList h
    rw [toList_text, toList_text] at htext
    -- From the end, since the name of a receiver may hold any of the characters around it.
    obtain ⟨hfront, hret⟩ :=
      Text.append_cons_inj_of_notMem_right s.notMem_retName t.notMem_retName htext
    obtain ⟨hreceiver, hparams⟩ := Text.append_cons_inj_of_notMem_right s.notMem_paramsText
      t.notMem_paramsText (List.append_cancel_right hfront)
    have hp := params_eq_of_paramsText_eq hparams
    exact ⟨hp, ReturnType.name_inj (String.toList_inj.mp hret),
      (receiverText_eq_iff hp).mp (String.toList_inj.mp hreceiver)⟩
  · rintro ⟨hparams, hret, hkind⟩
    rw [text, text, (receiverText_eq_iff hparams).mpr hkind, hparams, hret]

/-- A receiver whose name looks like parameters and a result. -/
example :
    (⟨[], .void, .instance ⟨0, "T, (i32) -> void"⟩⟩ : Signature).text ≠
      (⟨[.value .i32], .void, .instance ⟨0, "T"⟩⟩ : Signature).text := by
  decide

end Signature
end Invocation
