import Invocation.Proofs.Call.Portable
import Invocation.Proofs.Machine.Refinement
import Invocation.Proofs.Ownership.Holding
import Invocation.Session.Host

/-!
# Owners across native calls

A host program owns handles, and so do its native methods, which keep them between calls
(`Custody`). A call of a native method is lawful if all that it does about handles are acts of its
own, with the result handed out to the caller; the arguments are not its own, whoever owns them
(`Native.LawfulAt`). Whichever backend emitted the thunk, an invocation is then refused without any
effect, or amounts to acts of the native method and to the boxing of its result
(`Binding.Emits.run_cases`). So in whatever a host program does, every object has as many handles as
owners, and what the program can do next changes that as it should: a clone is one handle more, and
what is dropped is one less and takes its object along if it was the last (`HostState.Exact`,
`HostState.counts_exact`).
-/

namespace Invocation

variable {σ α : Type}

/-- Where the state of a host program has its objects, and what the native methods hold. -/
structure Custody (σ α : Type) where
  heap : σ → Heap α
  held : σ → List Holding
  /-- The state with other objects. -/
  setHeap : σ → Heap α → σ
  heap_setHeap (s : σ) (h : Heap α) : heap (setHeap s h) = h
  held_setHeap (s : σ) (h : Heap α) : held (setHeap s h) = held s

/-- What is owned with a native result. -/
def ReturnType.owned : (ret : ReturnType) → ret.Result → List Holding
  | .void, _ | .value _, _ => []
  | .reference, o => [.raw o]

/-- What is done about handles in a call of a native method are acts on what the native methods
hold, and the result is handed out. -/
def Native.LawfulAt [HoldsHandles α] (k : Custody σ α) {params : List ParamType} {ret : ReturnType}
    (f : Native σ params ret) (receiver : Word) (xs : Args params) (s : σ) : Prop :=
  Acts (k.heap s, k.held s)
    (k.heap (f receiver xs s).2, ret.owned (f receiver xs s).1 ++ k.held (f receiver xs s).2)

/-- The method calls its native function lawfully, if it accepts the arguments. -/
def Method.LawfulAt [HoldsHandles α] (k : Custody σ α) (m : Method σ) (receiver : Word)
    (args : ArgSlice) (s : σ) : Prop :=
  ∀ xs, Args.accept args 0 m.signature.params = .ok xs → m.native.LawfulAt k receiver xs s

/-- A backend of the library emits the thunk for the binding. -/
inductive Binding.Emits [ObjectNames σ] (b : Binding σ) : Thunk σ → Prop
  | portable : b.Emits (Portable.thunk b)
  | machine (code : Machine.Code Machine.ThunkLabel Machine.ThunkReg) :
    Machine.generate b = .ok code → b.Emits (Machine.thunk b code)

/-- A host program at some point: its state, and what it owns itself. -/
structure HostState (σ : Type) where
  state : σ
  owned : List Holding

namespace HostState

/-- What a host program can do: act on what it owns and on what its native methods hold, or call a
method, with arguments that it owns itself or borrows from elsewhere. It owns what it is answered.
-/
inductive Step [HoldsHandles α] [ObjectNames σ] (k : Custody σ α) :
    HostState σ → HostState σ → Prop
  | acts (s t : HostState σ) : Acts (k.heap s.state, s.owned ++ k.held s.state)
      (k.heap t.state, t.owned ++ k.held t.state) → Step k s t
  | invoke (s : HostState σ) (m : MethodHandle σ) (target : Option Target) (b : Binding σ)
      (thunk : Thunk σ) (args : ArgSlice) (outcome : Except InvokeError Value) (state : σ) :
      Binding.make m target = .ok b → b.Emits thunk →
      m.method.LawfulAt k (Target.receiverWord target) args s.state →
      (thunk args).run s.state = (.ok outcome, state) →
      Step k s ⟨state, (outcome.toOption.map Holding.value).toList ++ s.owned⟩

/-- There are no objects yet, and nobody owns a handle. -/
structure Fresh (k : Custody σ α) (s : HostState σ) : Prop where
  heap : k.heap s.state = .empty
  handles : Holding.handles (s.owned ++ k.held s.state) = []

end HostState

section Kept

variable [HoldsHandles α]

/-- How many handles to an object the native methods and the objects hold. -/
def Custody.kept (k : Custody σ α) (s : σ) (r : ObjectRef) : Nat :=
  (Holding.handles (k.held s)).count r + (k.heap s).inside.count r

/-- How many owners an object has: what the host program owns, what its native methods hold, and the
objects that hold it. -/
def HostState.owners (k : Custody σ α) (s : HostState σ) (r : ObjectRef) : Nat :=
  (Holding.handles s.owned).count r + k.kept s.state r

/-- The heap is balanced with what the host program owns and what its native methods hold. -/
def HostState.Balanced (k : Custody σ α) (s : HostState σ) : Prop :=
  (k.heap s.state).Balanced (Holding.handles (s.owned ++ k.held s.state))

/-- In a balanced state every object has as many handles as owners. -/
theorem HostState.Balanced.handleCount_eq {k : Custody σ α} {s : HostState σ} (hb : s.Balanced k)
    (r : ObjectRef) : (k.heap s.state).handleCount r = s.owners k r := by
  rw [hb.count, Holding.handles_append, List.count_append, Nat.add_assoc]
  rfl

end Kept

section Calls

variable [HoldsHandles α]

/-- A native result is boxed: a reference result is turned into a word, and the word into a value.
-/
theorem acts_toValue (h : Heap α) (held : List Holding) (ret : ReturnType) (x : ret.Result) :
    Acts (h, ret.owned x ++ held) (h, .value (ret.toValue x) :: held) := by
  cases ret with
  | void => exact .single (.plain h held _ rfl)
  | value type => exact .single (.plain h held _ rfl)
  | reference =>
    refine .tail (.single (.convert h held .toWord (.raw x) (.word x.toWord) rfl)) ?_
    refine .convert h held .rebox (.word x.toWord) _ ?_
    rw [Conversion.apply, RawObject.ofWord_toWord]
    rfl

variable [ObjectNames σ] {k : Custody σ α}

/-- A method responds to a call with an error, and nothing has happened; or it has been called, and
what happened are acts of the native method, if it is lawful, and the boxing of its result. -/
theorem Method.respond_cases (k : Custody σ α) (m : Method σ) (receiver : Word) (args : ArgSlice)
    (s : σ) :
    (∃ e, (m.respond receiver args).run s = (.ok (.error e), s)) ∨
      ∃ v t, (m.respond receiver args).run s = (.ok (.ok v), t) ∧
        (m.LawfulAt k receiver args s →
          Acts (k.heap s, k.held s) (k.heap t, .value v :: k.held t)) := by
  by_cases hl : args.length = m.arity
  · cases hx : Args.accept args 0 m.signature.params with
    | error refusal =>
      refine .inl ⟨.argumentTypeMismatch m.name refusal.index refusal.expected.name
        (refusal.actual.typeName (ObjectNames.typeName s)), ?_⟩
      simp only [respond, hl, hx, ne_eq, not_true, if_false]
      rfl
    | ok xs =>
      refine .inr ⟨m.signature.ret.toValue (m.native receiver xs s).1, (m.native receiver xs s).2,
        ?_, fun hm ↦ (hm xs hx).trans (acts_toValue _ _ _ _)⟩
      simp only [respond, hl, hx, ne_eq, not_true, if_false]
      rfl
  · refine .inl ⟨.argumentCountMismatch m.name m.arity args.length, ?_⟩
    simp only [respond, hl, ne_eq, not_false_eq_true, if_true]
    rfl

/-- A thunk of either backend does what its method responds. -/
theorem Binding.Emits.eq_respond {m : MethodHandle σ} {target : Option Target} {b : Binding σ}
    {thunk : Thunk σ} (he : b.Emits thunk) (bound : Binding.make m target = .ok b) :
    thunk = m.method.respond (Target.receiverWord target) := by
  cases he with
  | portable => exact Portable.thunk_eq_respond bound
  | machine code generated => exact Machine.thunk_eq_respond bound generated

/-- An invocation never faults: it is refused and nothing has happened, or the native method has
been called, and what happened are its acts, if it is lawful, and the boxing of its result. -/
theorem Binding.Emits.run_cases (k : Custody σ α) {m : MethodHandle σ} {target : Option Target}
    {b : Binding σ} {thunk : Thunk σ} (he : b.Emits thunk) (bound : Binding.make m target = .ok b)
    (args : ArgSlice) (s : σ) :
    (∃ e, (thunk args).run s = (.ok (.error e), s)) ∨
      ∃ v t, (thunk args).run s = (.ok (.ok v), t) ∧
        (m.method.LawfulAt k (Target.receiverWord target) args s →
          Acts (k.heap s, k.held s) (k.heap t, .value v :: k.held t)) := by
  rw [he.eq_respond bound]
  exact m.method.respond_cases k _ args s

namespace HostState

variable {s t : HostState σ}

omit [ObjectNames σ] in
/-- A native method that is called keeps the heap balanced, with what it hands out. -/
theorem Balanced.called (hb : s.Balanced k) {v : Value} {state : σ}
    (hacts : Acts (k.heap s.state, k.held s.state) (k.heap state, .value v :: k.held state)) :
    Balanced k ⟨state, .value v :: s.owned⟩ := by
  have hbefore : Heap.BalancedWith (Holding.handles s.owned) (k.heap s.state, k.held s.state) := by
    refine Heap.Balanced.congr hb fun r ↦ ?_
    rw [Holding.handles_append, List.count_append, List.count_append, Nat.add_comm]
  refine Heap.Balanced.congr (hacts.balanced hbefore) fun r ↦ ?_
  simp only [List.cons_append, Holding.handles_cons, Holding.handles_append, List.count_append]
  omega

/-- Whatever a host program does keeps the heap balanced. -/
theorem Balanced.step (hb : s.Balanced k) (h : Step k s t) : t.Balanced k := by
  cases h with
  | acts _ hacts =>
    have hbefore : Heap.BalancedWith [] (k.heap s.state, s.owned ++ k.held s.state) := by
      rw [Heap.BalancedWith, List.append_nil]
      exact hb
    have hafter := hacts.balanced hbefore
    rw [Heap.BalancedWith, List.append_nil] at hafter
    exact hafter
  | invoke m target b thunk args outcome state bound he hm hrun =>
    rcases he.run_cases k bound args s.state with ⟨e, herror⟩ | ⟨v, u, hok, hacts⟩
    · obtain ⟨houtcome, rfl⟩ := Prod.mk.inj (hrun.symm.trans herror)
      cases houtcome
      exact hb
    · obtain ⟨houtcome, rfl⟩ := Prod.mk.inj (hrun.symm.trans hok)
      cases houtcome
      exact hb.called (hacts hm)

/-- Wherever a host program gets to, the heap is balanced. -/
theorem balanced_run (hs : s.Fresh k) (h : Relation.ReflTransGen (Step k) s t) : t.Balanced k := by
  induction h with
  | refl =>
    rw [Balanced, hs.heap, hs.handles]
    exact Heap.balanced_empty
  | tail _ hstep ih => exact ih.step hstep

/-- An act on what a host program owns, in any order, is something that it can do. -/
theorem step_of_act {before : List Holding} (howned : s.owned.Perm before)
    (hheld : k.held t.state = k.held s.state)
    (hact : Act (k.heap s.state, before ++ k.held s.state)
      (k.heap t.state, t.owned ++ k.held s.state)) : Step k s t := by
  have harrange : Act (k.heap s.state, s.owned ++ k.held s.state)
      (k.heap s.state, before ++ k.held s.state) := .arrange _ _ _ (howned.append_right _)
  refine .acts s t ((Relation.ReflTransGen.single harrange).tail ?_)
  rw [hheld]
  exact hact

/-- An act that leaves a host program with other objects is something that it can do. -/
theorem step_setHeap {before after : List Holding} {h : Heap α} (howned : s.owned.Perm before)
    (hact : Act (k.heap s.state, before ++ k.held s.state) (h, after ++ k.held s.state)) :
    Step k s ⟨k.setHeap s.state h, after⟩ := by
  refine step_of_act howned (k.held_setHeap _ _) ?_
  rw [k.heap_setHeap]
  exact hact

/-- What a host program can do with its handles from here, and what becomes of the counts. -/
structure Exact (k : Custody σ α) (t : HostState σ) : Prop where
  /-- Every object has as many handles as owners, and is there exactly as long as it has some. -/
  count (r : ObjectRef) : (k.heap t.state).handleCount r = t.owners k r ∧
    (((k.heap t.state).find? r).isSome = true ↔ 0 < t.owners k r)
  /-- An object is made with one handle, where there is none. What its contents hold is moved into
  it, and the others are as they were. -/
  create (r : ObjectRef) (contents : α) (moved rest : List Holding) :
    (k.heap t.state).find? r = none →
    (HoldsHandles.handles contents).Perm (Holding.handles moved) → t.owned.Perm (moved ++ rest) →
    ∃ h, Step k t ⟨k.setHeap t.state h, .object r :: rest⟩ ∧ h.find? r = some ⟨r, 1, contents⟩ ∧
      ∀ s ≠ r, h.find? s = (k.heap t.state).find? s
  /-- An object, an optional one or a value can be cloned, which is one handle more to the object
  that it is. -/
  clone (x : Holding) : x ∈ t.owned → x.isClonable = true →
    ∃ h, x.clone? (k.heap t.state) = some h ∧ Step k t ⟨k.setHeap t.state h, x :: t.owned⟩ ∧
      ∀ r, h.handleCount r =
        (k.heap t.state).handleCount r + if x.handle? = some r then 1 else 0
  /-- Whatever is no word can be dropped. That releases the handle, if it has one: one less of
  exactly its object, which is gone if it was the last. -/
  drop (x : Holding) (rest : List Holding) : t.owned.Perm (x :: rest) → x.isWord = false →
    ∃ h, x.drop? (k.heap t.state) = some h ∧ Step k t ⟨k.setHeap t.state h, rest⟩ ∧
      (x.handle? = none → h = k.heap t.state) ∧
      ∀ r, x.handle? = some r → (k.heap t.state).Released h r
  /-- A conversion leaves all objects as they are. -/
  convert (c : Conversion) (x y : Holding) (rest : List Holding) : t.owned.Perm (x :: rest) →
    c.apply x = some y → Step k t ⟨t.state, y :: rest⟩
  /-- The handle of an object passes freely between the object, an optional one and a value. -/
  pass (r : ObjectRef) (x y : Holding) (rest : List Holding) :
    x ∈ [.object r, .option (some r), .value (.object r)] →
    y ∈ [.object r, .option (some r), .value (.object r)] → t.owned.Perm (x :: rest) →
    Relation.ReflTransGen (Step k) t ⟨t.state, y :: rest⟩
  /-- An object, an optional one or a value can be turned into a reference result, which is null if
  there is no object. -/
  toRaw (x : Holding) (rest : List Holding) : t.owned.Perm (x :: rest) → x.isClonable = true →
    Step k t ⟨t.state, .raw x.handle? :: rest⟩
  /-- A reference result can be turned into a word. -/
  toWord (o : RawObject) (rest : List Holding) : t.owned.Perm (.raw o :: rest) →
    Step k t ⟨t.state, .word o.toWord :: rest⟩
  /-- A word can be boxed. -/
  rebox (w : Word) (rest : List Holding) : t.owned.Perm (.word w :: rest) →
    Step k t ⟨t.state, .value (RawObject.ofWord w).toValue :: rest⟩
  /-- What was turned into a reference result, a word and back is the same object, or null if it was
  none. -/
  reboxed (v : Value) : ((Conversion.rawOfValue.apply (.value v)).bind Conversion.toWord.apply).bind
    Conversion.rebox.apply = some (.value (if v.isObject then v else .null))
  /-- An invocation, by either backend and with any arguments, never faults. It is refused and
  leaves the state as it is; or the host program owns what it is answered, and of a lawful call the
  handles of an object have changed only by as many as the native methods and the objects have come
  to hold or hold no longer, and by one for the object that is the answer. -/
  invoke (m : MethodHandle σ) (target : Option Target) (b : Binding σ) (thunk : Thunk σ)
    (args : ArgSlice) : Binding.make m target = .ok b → b.Emits thunk →
    (∃ e, (thunk args).run t.state = (.ok (.error e), t.state)) ∨
      ∃ v u, (thunk args).run t.state = (.ok (.ok v), u) ∧
        (m.method.LawfulAt k (Target.receiverWord target) args t.state →
          Step k t ⟨u, .value v :: t.owned⟩ ∧
          ∀ r, (k.heap u).handleCount r + k.kept t.state r =
            (k.heap t.state).handleCount r + k.kept u r + if v.object? = some r then 1 else 0)

omit [ObjectNames σ] in
/-- What the host program owns a handle to is there. -/
theorem Balanced.isSome_find? (hb : t.Balanced k) {x : Holding} (hx : x ∈ t.owned) {r : ObjectRef}
    (hr : x.handle? = some r) : ((k.heap t.state).find? r).isSome = true :=
  Heap.Balanced.isSome_find? hb (List.mem_filterMap.mpr ⟨x, List.mem_append_left _ hx, hr⟩)

/-- What the host program drops is one handle less. -/
theorem Balanced.exists_drop? (hb : t.Balanced k) {x : Holding} {rest : List Holding}
    (howned : t.owned.Perm (x :: rest)) (hx : x.isWord = false) :
    ∃ h, x.drop? (k.heap t.state) = some h ∧ Step k t ⟨k.setHeap t.state h, rest⟩ ∧
      (x.handle? = none → h = k.heap t.state) ∧
      ∀ r, x.handle? = some r → (k.heap t.state).Released h r := by
  have hbefore : (k.heap t.state).Balanced
      (x.handle?.toList ++ Holding.handles (rest ++ k.held t.state)) := by
    refine Heap.Balanced.congr hb fun r ↦ ?_
    rw [← Holding.handles_cons, ← List.cons_append]
    exact ((Holding.perm_handles (howned.append_right _)).count_eq r).symm
  obtain ⟨h, hdrop, hsame, hreleased⟩ := Holding.exists_drop? hx hbefore
  exact ⟨h, hdrop, step_setHeap howned (.drop _ h _ x hdrop), hsame, hreleased⟩

/-- What the host program clones is one handle more. -/
theorem Balanced.exists_clone? (hb : t.Balanced k) {x : Holding} (hx : x ∈ t.owned)
    (hclonable : x.isClonable = true) :
    ∃ h, x.clone? (k.heap t.state) = some h ∧ Step k t ⟨k.setHeap t.state h, x :: t.owned⟩ ∧
      ∀ r, h.handleCount r =
        (k.heap t.state).handleCount r + if x.handle? = some r then 1 else 0 := by
  have hlive (r : ObjectRef) (hr : x.handle? = some r) :
      ((k.heap t.state).find? r).isSome = true := hb.isSome_find? hx hr
  obtain ⟨h, hclone, hcount⟩ := Holding.exists_clone? hclonable hlive
  exact ⟨h, hclone, step_setHeap (.refl _) (.clone _ h _ x hclone hlive), hcount⟩

/-- What the host program makes is an object with one handle. -/
theorem exists_create {r : ObjectRef} {contents : α} {moved rest : List Holding}
    (hr : (k.heap t.state).find? r = none)
    (hcontents : (HoldsHandles.handles contents).Perm (Holding.handles moved))
    (howned : t.owned.Perm (moved ++ rest)) :
    ∃ h, Step k t ⟨k.setHeap t.state h, .object r :: rest⟩ ∧ h.find? r = some ⟨r, 1, contents⟩ ∧
      ∀ s ≠ r, h.find? s = (k.heap t.state).find? s := by
  refine ⟨(k.heap t.state).insert r contents, step_setHeap howned ?_, Heap.find?_insert _ _ _,
    fun s hs ↦ Heap.find?_insert_of_ne _ contents (Ne.symm hs)⟩
  rw [List.append_assoc]
  exact .create _ moved _ r contents hr hcontents

/-- A conversion of what the host program owns leaves the objects as they are. -/
theorem step_convert {c : Conversion} {x y : Holding} {rest : List Holding}
    (howned : t.owned.Perm (x :: rest)) (hc : c.apply x = some y) :
    Step k t ⟨t.state, y :: rest⟩ :=
  step_of_act howned rfl (.convert _ _ c x y hc)

/-- The handle of an object passes freely between the object, an optional one and a value. -/
theorem run_pass {r : ObjectRef} {x y : Holding} {rest : List Holding}
    (hx : x ∈ [.object r, .option (some r), .value (.object r)])
    (hy : y ∈ [.object r, .option (some r), .value (.object r)])
    (howned : t.owned.Perm (x :: rest)) :
    Relation.ReflTransGen (Step k) t ⟨t.state, y :: rest⟩ := by
  simp only [List.mem_cons, List.not_mem_nil, or_false] at hx hy
  have hobject : Step k t ⟨t.state, .object r :: rest⟩ := by
    rcases hx with rfl | rfl | rfl
    · exact step_of_act howned rfl (.arrange _ _ _ (.refl _))
    · exact step_convert (c := .take) howned rfl
    · exact step_convert (c := .unwrap) howned rfl
  rcases hy with rfl | rfl | rfl
  · exact .single hobject
  · exact (Relation.ReflTransGen.single hobject).tail (step_convert (c := .some) (.refl _) rfl)
  · exact (Relation.ReflTransGen.single hobject).tail (step_convert (c := .wrap) (.refl _) rfl)

omit [ObjectNames σ] in
/-- How a lawful call that is answered changes the number of handles of an object. -/
theorem Balanced.handleCount_called (hb : t.Balanced k) {v : Value} {u : σ}
    (hacts : Acts (k.heap t.state, k.held t.state) (k.heap u, .value v :: k.held u))
    (r : ObjectRef) : (k.heap u).handleCount r + k.kept t.state r =
      (k.heap t.state).handleCount r + k.kept u r + if v.object? = some r then 1 else 0 := by
  have hafter := (hb.called hacts).handleCount_eq r
  have hbefore := hb.handleCount_eq r
  rw [owners, Holding.handles_cons, List.count_append] at hafter
  rw [owners] at hbefore
  have hresult : (Holding.handle? (.value v)).toList.count r =
      if v.object? = some r then 1 else 0 := by
    cases v with
    | object o => simp [Holding.handle?, Value.object?, List.count_singleton]
    | null | inline => simp [Holding.handle?, Value.object?]
  rw [hresult] at hafter
  simp only [hafter, hbefore]
  omega

/-- Wherever a host program gets to from where there are no objects, the counts are exact: every
object has as many handles as owners and is there exactly as long as it has some, and whatever the
host program does next changes the counts as it should. -/
theorem counts_exact (hs : s.Fresh k) (h : Relation.ReflTransGen (Step k) s t) : t.Exact k := by
  have hb := balanced_run hs h
  constructor
  case count =>
    intro r
    refine ⟨hb.handleCount_eq r, ?_⟩
    rw [← hb.handleCount_eq r]
    exact Heap.Balanced.isSome_find?_iff hb r
  case create =>
    intro r contents moved rest hr hcontents howned
    exact exists_create hr hcontents howned
  case clone =>
    intro x hx hclonable
    exact hb.exists_clone? hx hclonable
  case drop =>
    intro x rest howned hx
    exact hb.exists_drop? howned hx
  case convert =>
    intro c x y rest howned hc
    exact step_convert howned hc
  case pass =>
    intro r x y rest hx hy howned
    exact run_pass hx hy howned
  case toRaw =>
    intro x rest howned hx
    cases x with
    | object r => exact step_convert (c := .rawOfObject) howned rfl
    | option o => exact step_convert (c := .rawOfOption) howned rfl
    | value v => exact step_convert (c := .rawOfValue) howned rfl
    | raw | word => cases hx
  case toWord =>
    intro o rest howned
    exact step_convert (c := .toWord) howned rfl
  case rebox =>
    intro w rest howned
    exact step_convert (c := .rebox) howned rfl
  case reboxed =>
    intro v
    cases v with
    | object r =>
      simp only [Conversion.apply, Option.bind_some, RawObject.ofWord_toWord]
      rfl
    | null | inline => rfl
  case invoke =>
    intro m target b thunk args bound he
    rcases he.run_cases k bound args t.state with herror | ⟨v, u, hrun, hacts⟩
    · exact .inl herror
    · refine .inr ⟨v, u, hrun, fun hm ↦ ⟨?_, hb.handleCount_called (hacts hm)⟩⟩
      exact .invoke t m target b thunk args (.ok v) u bound he hm hrun

end HostState

end Calls

/-- A host program whose native method keeps one value. -/
structure Keeper where
  heap : Heap Session.ObjectData
  kept : Value

namespace Keeper

/-- The objects of such a program have the names of their types. -/
instance : ObjectNames Keeper :=
  ⟨fun s r ↦ ((s.heap.contents? r).map Session.ObjectData.typeName).getD ""⟩

/-- Its native method holds the value that it keeps. -/
def custody : Custody Keeper Session.ObjectData :=
  ⟨heap, fun s ↦ [.value s.kept], fun s h ↦ { s with heap := h }, fun _ _ ↦ rfl, fun _ _ ↦ rfl⟩

/-- The method keeps a clone of its argument, and returns what it kept before. -/
def exchange : MethodHandle Keeper :=
  ⟨0, 64, ⟨"exchange", ⟨[.reference], .reference, .static⟩, 4096, fun _ (a, _) s ↦
    (.ofValue s.kept, ⟨s.heap.retainValue a.value, a.value⟩)⟩⟩

/-- The binding of the method. -/
def binding : Binding Keeper := ⟨exchange, none, ⟨[.passRef], .object⟩⟩

/-- The method clones what it borrows, which is alive, and hands out what it held. -/
theorem lawfulAt_exchange (receiver : Word) (a : ValueRef) (s : Keeper)
    (hlive : ∀ r, a.value.object? = some r → (s.heap.find? r).isSome = true) :
    exchange.method.native.LawfulAt custody receiver (a, ()) s := by
  have hclone : Act (s.heap, [.value s.kept])
      (s.heap.retainValue a.value, [.value a.value, .value s.kept]) :=
    .clone _ _ _ (.value a.value) rfl hlive
  have hswap : [Holding.value a.value, .value s.kept].Perm [.value s.kept, .value a.value] :=
    .swap _ _ _
  exact ((Relation.ReflTransGen.single hclone).tail (.arrange _ _ _ hswap)).tail
    (.convert _ _ .rawOfValue _ _ rfl)

/-- There is memory for one argument. -/
theorem fits_singleton (v : Value) : [v].length * slotSize ≤ maxSliceBytes :=
  show 1 * slotSize ≤ maxSliceBytes by decide

/-- A value as the only argument of a call. -/
def args (v : Value) : ArgSlice := ⟨4096, [v], fun _ ↦ 0, fits_singleton v⟩

/-- A call of the method is lawful if its argument is alive, whoever owns it. -/
theorem lawfulAt_args (v : Value) (s : Keeper)
    (hlive : ∀ r, v.object? = some r → (s.heap.find? r).isSome = true) :
    exchange.method.LawfulAt custody 0 (args v) s := by
  intro xs hx
  obtain rfl : (⟨4096, v⟩, ()) = xs := Except.ok.inj hx
  exact lawfulAt_exchange 0 ⟨4096, v⟩ s hlive

/-- There can be an object at this address. -/
theorem sixteen_ne_zero : (16 : Word) ≠ 0 := by decide

/-- There can be another object at this address. -/
theorem thirtyTwo_ne_zero : (32 : Word) ≠ 0 := by decide

/-- A handle to an object that is inside another one. -/
def inner : ObjectRef := ⟨16, sixteen_ne_zero⟩

/-- A handle to the object around it. -/
def outer : ObjectRef := ⟨32, thirtyTwo_ne_zero⟩

/-- The program before there are objects. -/
def start : HostState Keeper := ⟨⟨.empty, .null⟩, []⟩

/-- The program has made an object. -/
def made : HostState Keeper :=
  ⟨⟨start.state.heap.insert inner (.host (.string "kept")), .null⟩, [.object inner]⟩

/-- The program has moved its object into another one, and owns only that. -/
def nested : HostState Keeper :=
  ⟨⟨made.state.heap.insert outer (.value (.object inner)), .null⟩, [.object outer]⟩

/-- The method was called with what is inside the object. It has kept a clone, and has given back
null. -/
def given : HostState Keeper :=
  ⟨⟨nested.state.heap.retain inner, .object inner⟩, .value .null :: nested.owned⟩

/-- The method was called with null, and has given back what it kept. -/
def returned : HostState Keeper :=
  ⟨⟨given.state.heap, .null⟩, .value (.object inner) :: given.owned⟩

/-- When the outer object goes, it leaves the inner one with one handle. -/
theorem release_outer : returned.state.heap.release outer = made.state.heap := by
  have houter : returned.state.heap.find? outer = some ⟨outer, 1, .value (.object inner)⟩ := rfl
  have hinner : (returned.state.heap.remove outer).find? inner =
      some ⟨inner, 2, .host (.string "kept")⟩ := rfl
  rw [Heap.release, Heap.releaseAll_cons_of_last houter (by decide)]
  refine (Heap.releaseAll_cons_of_more hinner (by decide) []).trans ?_
  rw [Heap.releaseAll]
  rfl

/-- An object is moved into another one, and from in there it is borrowed to the method by a
portable thunk: it has two handles. A thunk of machine code gets it back, and it still has two. When
the last handle of the object around it is dropped, that is gone and the inner one has one handle;
when this is dropped, the inner one is gone. -/
theorem counts_exact_exchange :
    Relation.ReflTransGen (HostState.Step custody) start given ∧
    given.state.heap.handleCount inner = 2 ∧
    (∃ code, Machine.generate binding = .ok code ∧
      (Machine.thunk binding code (args .null)).run given.state =
        (.ok (.ok (.object inner)), returned.state)) ∧
    returned.state.heap.handleCount inner = 2 ∧
    ∃ h₁ h₂, Holding.drop? returned.state.heap (.object outer) = some h₁ ∧
      h₁.find? outer = none ∧ h₁.handleCount inner = 1 ∧
      Holding.drop? h₁ (.value (.object inner)) = some h₂ ∧ h₂.find? inner = none := by
  have hfresh : start.Fresh custody := ⟨rfl, rfl⟩
  have bound : Binding.make exchange none = .ok binding := rfl
  have hmade : HostState.Step custody start made :=
    .acts _ _ (.single (.create _ [] [.value .null] inner _ rfl (.refl _)))
  have hnested : HostState.Step custody made nested :=
    .acts _ _ (.single (.create _ [.object inner] [.value .null] outer _ rfl (.refl _)))
  have hlawful : exchange.method.LawfulAt custody 0 (args (.object inner)) nested.state :=
    lawfulAt_args _ _ fun r hr ↦ by
      obtain rfl : inner = r := Option.some.inj hr
      rfl
  have hgiven : HostState.Step custody nested given :=
    .invoke nested exchange none binding _ _ (.ok .null) given.state bound .portable hlawful rfl
  have hrun := ((Relation.ReflTransGen.single hmade).tail hnested).tail hgiven
  have hexact := HostState.counts_exact hfresh hrun
  have htwo : given.state.heap.handleCount inner = 2 := (hexact.count inner).1.trans (by decide)
  obtain ⟨code, generated⟩ : ∃ code, Machine.generate binding = .ok code :=
    ⟨_, Machine.generate_eq_ok binding⟩
  have hthunk : (Machine.thunk binding code (args .null)).run given.state =
      (.ok (.ok (.object inner)), returned.state) := by
    rw [Machine.thunk_eq_respond bound generated]
    rfl
  -- The method kept one handle before and keeps none now; the host program owns it instead.
  have hreturned : HostState.Step custody given returned ∧
      returned.state.heap.handleCount inner = 2 := by
    rcases hexact.invoke exchange none binding _ (args .null) bound (.machine code generated)
      with ⟨e, herror⟩ | ⟨v, u, hok, hcalled⟩
    · cases (Prod.mk.inj (hthunk.symm.trans herror)).1
    · obtain ⟨hv, rfl⟩ := Prod.mk.inj (hthunk.symm.trans hok)
      cases hv
      obtain ⟨hstep, hcount⟩ := hcalled (lawfulAt_args _ _ fun r hr ↦ by cases hr)
      have hsame : returned.state.heap.handleCount inner + 2 =
          given.state.heap.handleCount inner + 1 + 1 := hcount inner
      rw [htwo] at hsame
      exact ⟨hstep, Nat.add_right_cancel hsame⟩
  have hrun' := hrun.tail hreturned.1
  have howned : returned.owned.Perm (.object outer :: [.value .null, .value (.object inner)]) :=
    (List.reverse_perm _).symm
  obtain ⟨h₁, hdrop, hstep, -, hreleased⟩ :=
    (HostState.counts_exact hfresh hrun').drop _ _ howned rfl
  have hlast : returned.state.heap.handleCount outer = 1 := by decide
  obtain rfl : made.state.heap = h₁ := release_outer.symm.trans (Option.some.inj hdrop)
  have hone : made.state.heap.handleCount inner = 1 := Heap.handleCount_insert _ _ _
  obtain ⟨h₂, hdrop', -, -, hreleased'⟩ :=
    (HostState.counts_exact hfresh (hrun'.tail hstep)).drop _ _ (.swap _ _ _) rfl
  exact ⟨hrun, htwo, ⟨code, generated, hthunk⟩, hreturned.2, _, h₂, hdrop,
    (hreleased outer rfl).gone.mpr hlast, hone, hdrop', (hreleased' inner rfl).gone.mpr hone⟩

end Keeper

end Invocation
