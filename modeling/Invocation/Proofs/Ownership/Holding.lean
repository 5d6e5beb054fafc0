import Invocation.Proofs.Ownership.Balance

/-!
# What owns a handle

A handle is owned by an object, an optional object, a value, a reference result, or a word that has
not been boxed yet (`Holding`). Those that a program owns are its pool. A clone is one handle more
(`Holding.exists_clone?`), and what is dropped is one handle less and takes its object along if it
was the last (`Holding.exists_drop?`). A program makes objects, clones what is alive, drops and
converts what it owns, and moves handles into and out of objects (`Act`); each of these keeps the
heap balanced with the pool and with whatever others own meanwhile (`Act.balanced`), and so does any
sequence of them (`Acts.balanced`).
-/

namespace Invocation

/-- Something that owns a handle, unless it is null or has no handle. -/
inductive Holding where
  | object (r : ObjectRef)
  | option (o : Option ObjectRef)
  | value (v : Value)
  | raw (o : RawObject)
  /-- The word of a reference result, which is to be boxed once. -/
  | word (w : Word)

namespace Holding

variable {α : Type}

/-- The handle that is owned. -/
def handle? : Holding → Option ObjectRef
  | .object r => some r
  | .option o => o
  | .value v => v.object?
  | .raw o => o
  | .word w => RawObject.ofWord w

/-- The handles that are owned by all together. -/
def handles (xs : List Holding) : List ObjectRef := xs.filterMap handle?

/-- The heap after a clone was made, where there can be one. -/
def clone? (h : Heap α) : Holding → Option (Heap α)
  | .object r => some (h.retain r)
  | .option o => some (h.retainValue (RawObject.toValue o))
  | .value v => some (h.retainValue v)
  | .raw _ | .word _ => none

/-- The heap after something was dropped. A word has no destructor. -/
def drop? [HoldsHandles α] (h : Heap α) : Holding → Option (Heap α)
  | .object r => some (h.release r)
  | .option o | .raw o => some (h.releaseValue (RawObject.toValue o))
  | .value v => some (h.releaseValue v)
  | .word _ => none

/-- An object, an optional one or a value: there can be clones of it, and a reference result can be
made of it. -/
def isClonable : Holding → Bool
  | .object _ | .option _ | .value _ => true
  | .raw _ | .word _ => false

/-- A word, which is boxed and not dropped. -/
def isWord : Holding → Bool
  | .word _ => true
  | _ => false

/-- The handles of a pool are those of what came to it last, and the others. -/
theorem handles_cons (x : Holding) (xs : List Holding) :
    handles (x :: xs) = x.handle?.toList ++ handles xs := by
  rw [handles, List.filterMap_cons]
  cases x.handle? <;> rfl

/-- The handles of two pools together. -/
theorem handles_append (xs ys : List Holding) : handles (xs ++ ys) = handles xs ++ handles ys :=
  List.filterMap_append

/-- The order of a pool does not matter. -/
theorem perm_handles {xs ys : List Holding} (h : xs.Perm ys) : (handles xs).Perm (handles ys) :=
  h.filterMap _

/-- A reference result becomes a value of the same handle. -/
theorem object?_toValue (o : RawObject) : o.toValue.object? = o := by
  cases o <;> rfl

/-- A clone is made by retaining the handle. -/
theorem clone?_eq (h : Heap α) (x : Holding) :
    x.clone? h = if x.isClonable then some (x.handle?.elim h h.retain) else none := by
  cases x with
  | option o => cases o <;> rfl
  | value v => cases v <;> rfl
  | object | raw | word => rfl

/-- What is dropped releases its handle. -/
theorem drop?_eq [HoldsHandles α] (h : Heap α) (x : Holding) :
    x.drop? h = if x.isWord then none else some (x.handle?.elim h h.release) := by
  cases x with
  | option o | raw o => cases o <;> rfl
  | value v => cases v <;> rfl
  | object | word => rfl

/-- There is a clone of whatever can be cloned. It is one more handle to its object, and none to
any other. -/
theorem exists_clone? {h : Heap α} {x : Holding} (hx : x.isClonable = true)
    (hlive : ∀ r, x.handle? = some r → (h.find? r).isSome = true) :
    ∃ h', x.clone? h = some h' ∧ ∀ r, h'.handleCount r =
      h.handleCount r + if x.handle? = some r then 1 else 0 := by
  refine ⟨x.handle?.elim h h.retain, by rw [clone?_eq, if_pos hx], fun r ↦ ?_⟩
  cases hr : x.handle? with
  | none => rfl
  | some s =>
    obtain ⟨o, ho⟩ := Option.isSome_iff_exists.mp (hlive s hr)
    rw [Option.elim_some, Heap.retain,
      Heap.handleCount_update h s r (f := fun o ↦ { o with handles := o.handles + 1 }) fun _ ↦ rfl]
    by_cases hrs : r = s
    · subst hrs
      simp [Heap.handleCount, ho]
    · simp [hrs, Ne.symm hrs]

variable [HoldsHandles α] {h h' : Heap α} {owned : List ObjectRef} {x : Holding}

/-- A clone owns one more handle to the same object. -/
theorem balanced_clone? (hx : x.clone? h = some h') (hb : h.Balanced owned)
    (hlive : ∀ r, x.handle? = some r → (h.find? r).isSome = true) :
    h'.Balanced (x.handle?.toList ++ owned) := by
  rw [clone?_eq] at hx
  obtain ⟨-, hx⟩ := Option.ite_none_right_eq_some.mp hx
  obtain rfl := Option.some.inj hx
  cases hr : x.handle? with
  | none => exact hb
  | some r => exact hb.retain (hlive r hr)

/-- What was dropped owns its handle no longer. -/
theorem balanced_drop? (hx : x.drop? h = some h') (hb : h.Balanced (x.handle?.toList ++ owned)) :
    h'.Balanced owned := by
  rw [drop?_eq] at hx
  obtain ⟨-, hx⟩ := Option.ite_none_left_eq_some.mp hx
  obtain rfl := Option.some.inj hx
  cases hr : x.handle? with
  | none =>
    rw [hr] at hb
    exact hb
  | some r =>
    rw [hr] at hb
    exact hb.release

/-- Whatever is no word can be dropped. Without a handle that changes nothing; else the handle is
released. -/
theorem exists_drop? (hx : x.isWord = false) (hb : h.Balanced (x.handle?.toList ++ owned)) :
    ∃ h', x.drop? h = some h' ∧ (x.handle? = none → h' = h) ∧
      ∀ r, x.handle? = some r → h.Released h' r := by
  refine ⟨x.handle?.elim h h.release, by rw [drop?_eq, hx]; rfl, fun hr ↦ by rw [hr]; rfl,
    fun r hr ↦ ?_⟩
  rw [hr] at hb ⊢
  exact hb.released

end Holding

/-- What one holding can be turned into; the handle passes to the other. -/
inductive Conversion where
  /-- An object becomes a value. -/
  | wrap
  /-- A value that is an object becomes that. -/
  | unwrap
  /-- An object becomes an optional one. -/
  | some
  /-- An optional object that there is becomes that. -/
  | take
  | rawOfObject
  | rawOfOption
  /-- A value becomes a reference result; what is no object becomes null. -/
  | rawOfValue
  | toWord
  /-- A word is boxed. -/
  | rebox

namespace Conversion

/-- What a holding is turned into, if it can be. -/
def apply : Conversion → Holding → Option Holding
  | .wrap, .object r => .some (.value (.object r))
  | .unwrap, .value (.object r) => .some (.object r)
  | .some, .object r => .some (.option (.some r))
  | .take, .option (.some r) => .some (.object r)
  | .rawOfObject, .object r => .some (.raw (.some r))
  | .rawOfOption, .option o => .some (.raw o)
  | .rawOfValue, .value v => .some (.raw (.ofValue v))
  | .toWord, .raw o => .some (.word o.toWord)
  | .rebox, .word w => .some (.value (RawObject.ofWord w).toValue)
  | _, _ => none

/-- A conversion passes the handle on. -/
theorem handle?_apply {c : Conversion} {x y : Holding} (h : c.apply x = .some y) :
    y.handle? = x.handle? := by
  unfold apply at h
  split at h <;> cases h
  case h_8 o => exact RawObject.ofWord_toWord o
  case h_9 w => exact Holding.object?_toValue _
  all_goals rfl

end Conversion

section Acts

variable {α : Type} [HoldsHandles α]

/-- What a program can do with the heap and its pool. -/
inductive Act : Heap α × List Holding → Heap α × List Holding → Prop
  /-- The order of the pool does not matter. -/
  | arrange (h : Heap α) (owned owned' : List Holding) : owned.Perm owned' →
    Act (h, owned) (h, owned')
  /-- Get something without a handle. -/
  | plain (h : Heap α) (owned : List Holding) (x : Holding) : x.handle? = none →
    Act (h, owned) (h, x :: owned)
  /-- Make an object, where none is, and move what its contents hold into it. -/
  | create (h : Heap α) (moved rest : List Holding) (r : ObjectRef) (contents : α) :
    h.find? r = none → (HoldsHandles.handles contents).Perm (Holding.handles moved) →
    Act (h, moved ++ rest) (h.insert r contents, .object r :: rest)
  /-- Clone what is alive: what is owned, or borrowed from somebody else, or found in an object. -/
  | clone (h h' : Heap α) (owned : List Holding) (x : Holding) : x.clone? h = some h' →
    (∀ r, x.handle? = some r → (h.find? r).isSome = true) → Act (h, owned) (h', x :: owned)
  | drop (h h' : Heap α) (rest : List Holding) (x : Holding) : x.drop? h = some h' →
    Act (h, x :: rest) (h', rest)
  | convert (h : Heap α) (rest : List Holding) (c : Conversion) (x y : Holding) :
    c.apply x = some y → Act (h, x :: rest) (h, y :: rest)
  /-- Put other contents into an object; move what they hold into it, and what was held out. -/
  | exchange (h : Heap α) (given got rest : List Holding) (r : ObjectRef) (o : HeapObject α)
    (contents : α) : h.find? r = some o →
    (HoldsHandles.handles contents ++ Holding.handles got).Perm
      (HoldsHandles.handles o.contents ++ Holding.handles given) →
    Act (h, given ++ rest) (h.replace r contents, got ++ rest)

/-- What a program can do, one thing after the other. -/
abbrev Acts : Heap α × List Holding → Heap α × List Holding → Prop := Relation.ReflTransGen Act

/-- The heap is balanced with a pool and with what others own. -/
def Heap.BalancedWith (others : List ObjectRef) (s : Heap α × List Holding) : Prop :=
  s.1.Balanced (Holding.handles s.2 ++ others)

variable {others : List ObjectRef} {s t : Heap α × List Holding}

/-- Whatever a program does, the heap stays balanced with its pool and with what others own. -/
theorem Act.balanced (ha : Act s t) (hb : Heap.BalancedWith others s) :
    Heap.BalancedWith others t := by
  unfold Heap.BalancedWith at hb ⊢
  cases ha with
  | arrange h owned owned' hp =>
    refine hb.congr fun r ↦ ?_
    rw [List.count_append, List.count_append, (Holding.perm_handles hp).count_eq]
  | plain h owned x hx =>
    rw [Holding.handles_cons, hx]
    exact hb
  | create h moved rest r contents hr hcontents =>
    simp only [Holding.handles_append, List.append_assoc] at hb
    refine Heap.Balanced.insert hr (hb.congr fun s ↦ ?_)
    rw [List.count_append, List.count_append, hcontents.count_eq]
    rfl
  | clone h h' owned x hx hlive =>
    rw [Holding.handles_cons, List.append_assoc]
    exact Holding.balanced_clone? hx hb hlive
  | drop h h' rest x hx =>
    rw [Holding.handles_cons, List.append_assoc] at hb
    exact Holding.balanced_drop? hx hb
  | convert h rest c x y hx =>
    rw [Holding.handles_cons, Conversion.handle?_apply hx, ← Holding.handles_cons]
    exact hb
  | exchange h given got rest r o contents ho hmoved =>
    simp only [Holding.handles_append, List.append_assoc] at hb ⊢
    exact hb.replace ho hmoved

/-- Whatever a program does one after the other, the heap stays balanced. -/
theorem Acts.balanced (ha : Acts s t) (hb : Heap.BalancedWith others s) :
    Heap.BalancedWith others t := by
  induction ha with
  | refl => exact hb
  | tail _ hact ih => exact hact.balanced ih

end Acts

end Invocation
