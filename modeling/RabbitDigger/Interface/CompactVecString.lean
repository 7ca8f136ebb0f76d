import RabbitDigger.Interface.Basic

/-!
# Lists of strings in one buffer

`rd-interface/src/config/compact_vec_string.rs`: a `CompactVecString` keeps all its strings in
one byte buffer, one after the other, and beside it **the offset at which each one starts**.
A string is cut out of the buffer between its offset and the next one, and taken for UTF-8
*without a check*.

Reading can go wrong in three ways (`Fault`): an index or a slice out of bounds panics, and
bytes that are no UTF-8 are undefined behaviour.  That none of them happens rests on the
offsets.  Every value is the one that its list of strings determines (`ofList`), whatever
constructors and operations have led to it (`run_eq_ofList`).  So reading gives back the
list, and two values have the same fields exactly if they have the same list.
-/

namespace RabbitDigger

/-- `str::as_bytes`. -/
def utf8 (s : String) : Bytes := s.toByteArray.data.toList

/-- `Vec<u8>` and the start of each string. -/
structure CompactVecString where
  underlying : Bytes
  index : List ℕ
deriving Repr, DecidableEq

namespace CompactVecString

/-- What must not happen while a string is read. -/
inductive Fault where
  /-- `self.index[i]` out of bounds. -/
  | index
  /-- `self.underlying[start..end]` out of bounds. -/
  | slice
  /-- `from_utf8_unchecked` of something else. -/
  | utf8
deriving Repr, DecidableEq

/-! ## The operations -/

/-- `new`. -/
def new : CompactVecString := ⟨[], []⟩

/-- `with_capacity`: the capacity is no part of the value. -/
def withCapacity (_ : ℕ) : CompactVecString := ⟨[], []⟩

/-- `push`. -/
def push (v : CompactVecString) (s : String) : CompactVecString where
  underlying := v.underlying ++ utf8 s
  index := v.index ++ [v.underlying.length]

/-- `pop`: the buffer is truncated to where the last string starts. -/
def pop (v : CompactVecString) : CompactVecString :=
  match v.index.getLast? with
  | some i => ⟨v.underlying.take i, v.index.dropLast⟩
  | none => v

/-- `extend`, of strings or of string slices. -/
def extend (v : CompactVecString) (items : List String) : CompactVecString := items.foldl push v

/-- `shrink_to_fit`: the capacity is no part of the value. -/
def shrinkToFit (v : CompactVecString) : CompactVecString := v

/-- `from_iter`, of strings or of string slices. -/
def fromIter (items : List String) : CompactVecString := items.foldl push new

/-- `From<Vec<S>>`. -/
def fromVec (items : List String) : CompactVecString := (items.foldl push new).shrinkToFit

/-- `From<String>`, and `From<&str>`. -/
def fromString (s : String) : CompactVecString := (withCapacity 1).push s

/-- `len`. -/
def len (v : CompactVecString) : ℕ := v.index.length

/-- `self.index[i]`. -/
def indexAt (v : CompactVecString) (i : ℕ) : Except Fault ℕ :=
  match v.index[i]? with
  | some start => .ok start
  | none => .error .index

/-- `&self.underlying[start..end]`. -/
def slice (v : CompactVecString) (start stop : ℕ) : Except Fault Bytes :=
  if start ≤ stop ∧ stop ≤ v.underlying.length then
    .ok ((v.underlying.take stop).drop start)
  else .error .slice

/-- `from_utf8_unchecked`. -/
def fromUtf8Unchecked (bytes : Bytes) : Except Fault String :=
  match String.fromUTF8? ⟨bytes.toArray⟩ with
  | some s => .ok s
  | none => .error .utf8

/-- Where a string ends: where the next one starts, or the buffer ends. -/
def stopAt (v : CompactVecString) (i : ℕ) : Except Fault ℕ :=
  if i + 1 < v.index.length then v.indexAt (i + 1) else .ok v.underlying.length

/-- `get`. -/
def get (v : CompactVecString) (i : ℕ) : Except Fault (Option String) :=
  if i ≥ v.index.length then .ok none
  else do
    let start ← v.indexAt i
    let stop ← v.stopAt i
    let bytes ← v.slice start stop
    return some (← fromUtf8Unchecked bytes)

/-- `Iter`. -/
structure Iter where
  inner : CompactVecString
  index : ℕ

/-- `iter`. -/
def iter (v : CompactVecString) : Iter := ⟨v, 0⟩

namespace Iter

/-- `next`. -/
def next (it : Iter) : Except Fault (Option String × Iter) := do
  let result ← it.inner.get it.index
  return (result, { it with index := it.index + 1 })

/-- `collect`, cut after `n` calls of `next`; `none` if the iterator was not through. -/
def collect : ℕ → Iter → Except Fault (Option (List String))
  | 0, _ => .ok none
  | n + 1, it => do
      match ← it.next with
      | (none, _) => return some []
      | (some s, it) => return (← collect n it).map (s :: ·)

/-- `Iterator::eq`, with the iterator over a vector. -/
def eq : Iter → List String → Except Fault Bool
  | it, [] => do
      let (result, _) ← it.next
      return result.isNone
  | it, y :: ys => do
      match ← it.next with
      | (none, _) => return false
      | (some x, it) => if x = y then it.eq ys else return false

end Iter

/-- `into_iter().collect::<Vec<_>>()`.  An iterator over `n` strings is through after `n + 1`
calls (`collect_ofList`). -/
def toVec (v : CompactVecString) : Except Fault (Option (List String)) :=
  v.iter.collect (v.len + 1)

/-- `join`. -/
def join (v : CompactVecString) (sep : String) : Except Fault (Option String) := do
  return (← v.toVec).map (sep.intercalate ·)

/-- `PartialEq<Vec<I>>`. -/
def eqVec (v : CompactVecString) (other : List String) : Except Fault Bool :=
  if v.len ≠ other.length then .ok false else v.iter.eq other

/-! ## The value of a list -/

/-- The strings of a list in one buffer. -/
def flat (l : List String) : Bytes := l.flatMap utf8

/-- Where the `i`-th string starts. -/
def offset (l : List String) (i : ℕ) : ℕ := (flat (l.take i)).length

/-- **The value of a list of strings.** -/
def ofList (l : List String) : CompactVecString where
  underlying := flat l
  index := (List.range l.length).map (offset l)

@[simp] theorem flat_append (l l' : List String) : flat (l ++ l') = flat l ++ flat l' :=
  List.flatMap_append

@[simp] theorem flat_singleton (s : String) : flat [s] = utf8 s := List.flatMap_singleton _ _

/-- The offsets of the strings before are not changed by what comes after. -/
theorem offset_append (l l' : List String) {i : ℕ} (h : i ≤ l.length) :
    offset (l ++ l') i = offset l i := by
  rw [offset, List.take_append_of_le_length h, offset]

theorem offset_length (l : List String) : offset l l.length = (flat l).length := by
  rw [offset, List.take_length]

/-- Pushing a string on the value of a list. -/
theorem push_ofList (l : List String) (s : String) : (ofList l).push s = ofList (l ++ [s]) := by
  have hindex : (List.range l.length).map (offset l)
      = (List.range l.length).map (offset (l ++ [s])) := by
    apply List.map_congr_left
    intro i hi
    exact (offset_append l [s] (Nat.le_of_lt (List.mem_range.mp hi))).symm
  simp only [push, ofList, flat_append, flat_singleton, List.length_append, List.length_singleton,
    List.range_succ, List.map_append, List.map_singleton, hindex,
    offset_append l [s] (Nat.le_refl _), offset_length]

/-- Popping the last string off the value of a list. -/
theorem pop_ofList (l : List String) : (ofList l).pop = ofList l.dropLast := by
  rcases List.eq_nil_or_concat l with rfl | ⟨l, s, rfl⟩
  · rfl
  · rw [List.concat_eq_append, List.dropLast_concat, ← push_ofList]
    simp only [pop, push, List.getLast?_concat, List.dropLast_concat, List.take_left]

theorem foldl_push_ofList (l items : List String) :
    items.foldl push (ofList l) = ofList (l ++ items) := by
  induction items generalizing l with
  | nil => rw [List.foldl_nil, List.append_nil]
  | cons s items ih =>
      rw [List.foldl_cons, push_ofList, ih, List.append_assoc, List.singleton_append]

/-! ## Any constructor, any operations -/

/-- The constructors. -/
inductive Constructor where
  | new
  | withCapacity (capacity : ℕ)
  | fromVec (items : List String)
  | fromString (s : String)
  | fromIter (items : List String)

/-- What a constructor builds. -/
def Constructor.build : Constructor → CompactVecString
  | .new => CompactVecString.new
  | .withCapacity capacity => CompactVecString.withCapacity capacity
  | .fromVec items => CompactVecString.fromVec items
  | .fromString s => CompactVecString.fromString s
  | .fromIter items => CompactVecString.fromIter items

/-- The list it stands for. -/
def Constructor.list : Constructor → List String
  | .new | .withCapacity _ => []
  | .fromVec items | .fromIter items => items
  | .fromString s => [s]

/-- The operations. -/
inductive Op where
  | push (s : String)
  | pop
  | extend (items : List String)

/-- What an operation does. -/
def Op.apply (v : CompactVecString) : Op → CompactVecString
  | .push s => v.push s
  | .pop => v.pop
  | .extend items => v.extend items

/-- The same operation on a list. -/
def Op.onList (l : List String) : Op → List String
  | .push s => l ++ [s]
  | .pop => l.dropLast
  | .extend items => l ++ items

/-- One operation. -/
theorem apply_ofList (l : List String) (op : Op) : op.apply (ofList l) = ofList (op.onList l) := by
  cases op with
  | push s => exact push_ofList l s
  | pop => exact pop_ofList l
  | extend items => exact foldl_push_ofList l items

theorem build_eq_ofList (c : Constructor) : c.build = ofList c.list := by
  cases c with
  | new | withCapacity => rfl
  | fromVec items => exact foldl_push_ofList [] items
  | fromString s => exact push_ofList [] s
  | fromIter items => exact foldl_push_ofList [] items

/-- **Every value is the one of its list.** -/
theorem run_eq_ofList (c : Constructor) (ops : List Op) :
    ops.foldl Op.apply c.build = ofList (ops.foldl Op.onList c.list) := by
  rw [build_eq_ofList]
  generalize c.list = l
  induction ops generalizing l with
  | nil => rfl
  | cons op ops ih => rw [List.foldl_cons, apply_ofList, ih, List.foldl_cons]

/-! ## Reading -/

/-- The bytes of a string are UTF-8, and those of this string. -/
theorem fromUtf8Unchecked_utf8 (s : String) : fromUtf8Unchecked (utf8 s) = .ok s := by
  have hbytes : (⟨(utf8 s).toArray⟩ : ByteArray) = s.toByteArray := by
    rw [utf8, Array.toArray_toList]
  have hdecode : String.fromUTF8? s.toByteArray = some s := dif_pos s.isValidUTF8
  rw [fromUtf8Unchecked, hbytes, hdecode]

/-- One more string. -/
theorem flat_take_succ (l : List String) {i : ℕ} (h : i < l.length) :
    flat (l.take (i + 1)) = flat (l.take i) ++ utf8 l[i] := by
  rw [List.take_add_one, List.getElem?_eq_getElem h, flat_append, Option.toList_some,
    flat_singleton]

/-- The buffer up to an offset holds the strings before it. -/
theorem take_offset (l : List String) (i : ℕ) :
    (flat l).take (offset l i) = flat (l.take i) := by
  have hsplit : flat l = flat (l.take i) ++ flat (l.drop i) := by
    rw [← flat_append, List.take_append_drop]
  rw [offset, hsplit, List.take_left]

theorem offset_le (l : List String) (i : ℕ) : offset l i ≤ (flat l).length := by
  have hlength := congrArg List.length (take_offset l i)
  rw [List.length_take, ← offset] at hlength
  omega

/-- **The buffer is cut at the boundaries of strings.** -/
theorem slice_ofList (l : List String) {i : ℕ} (h : i < l.length) :
    (ofList l).slice (offset l i) (offset l (i + 1)) = .ok (utf8 l[i]) := by
  have hsucc := flat_take_succ l h
  have hle : offset l i ≤ offset l (i + 1) := by
    rw [offset, offset, hsucc, List.length_append]
    exact Nat.le_add_right _ _
  have hbytes : ((ofList l).underlying.take (offset l (i + 1))).drop (offset l i) = utf8 l[i] := by
    show ((flat l).take _).drop _ = _
    rw [take_offset, hsucc, offset, List.drop_left]
  rw [slice, if_pos ⟨hle, offset_le l (i + 1)⟩, hbytes]

theorem indexAt_ofList (l : List String) {i : ℕ} (h : i < l.length) :
    (ofList l).indexAt i = .ok (offset l i) := by
  have hindex : (ofList l).index[i]? = some (offset l i) := by
    show ((List.range l.length).map (offset l))[i]? = _
    rw [List.getElem?_map, List.getElem?_range h, Option.map_some]
  simp only [indexAt, hindex]

theorem length_index_ofList (l : List String) : (ofList l).index.length = l.length := by
  show ((List.range l.length).map (offset l)).length = _
  rw [List.length_map, List.length_range]

/-- The last string ends where the buffer does. -/
theorem stopAt_ofList (l : List String) {i : ℕ} (h : i < l.length) :
    (ofList l).stopAt i = .ok (offset l (i + 1)) := by
  rw [stopAt, length_index_ofList]
  by_cases hnext : i + 1 < l.length
  · rw [if_pos hnext, indexAt_ofList l hnext]
  · have hlast : i + 1 = l.length := by omega
    rw [if_neg hnext, hlast, offset_length]
    rfl

/-- **Reading gives the strings of the list**, without a fault. -/
theorem get_ofList (l : List String) (i : ℕ) : (ofList l).get i = .ok l[i]? := by
  unfold get
  rw [length_index_ofList]
  by_cases h : i ≥ l.length
  · rw [if_pos h, List.getElem?_eq_none h]
  · have hlt : i < l.length := Nat.lt_of_not_le h
    rw [if_neg h, indexAt_ofList l hlt, stopAt_ofList l hlt, List.getElem?_eq_getElem hlt]
    show ((ofList l).slice (offset l i) (offset l (i + 1))).bind _ = _
    rw [slice_ofList l hlt]
    show (fromUtf8Unchecked (utf8 l[i])).bind _ = _
    rw [fromUtf8Unchecked_utf8]
    rfl

/-- The `i`-th call of `next`. -/
theorem next_ofList (l : List String) (i : ℕ) :
    (Iter.mk (ofList l) i).next = .ok (l[i]?, ⟨ofList l, i + 1⟩) := by
  simp only [Iter.next, get_ofList]
  rfl

/-- An iterator delivers the strings that are left. -/
theorem collect_ofList (l : List String) {i n : ℕ} (h : l.length - i < n) :
    (Iter.mk (ofList l) i).collect n = .ok (some (l.drop i)) := by
  induction n generalizing i with
  | zero => exact absurd h (Nat.not_lt_zero _)
  | succ n ih =>
      unfold Iter.collect
      rw [next_ofList]
      by_cases hi : i < l.length
      · have hrest := ih (i := i + 1) (by omega)
        rw [List.getElem?_eq_getElem hi, List.drop_eq_getElem_cons hi]
        show ((Iter.mk (ofList l) (i + 1)).collect n).bind _ = _
        rw [hrest]
        rfl
      · rw [List.getElem?_eq_none (by omega), List.drop_eq_nil_of_le (by omega)]
        rfl

/-- The comparison of what is left with a vector. -/
theorem eq_ofList (l ys : List String) (i : ℕ) :
    (Iter.mk (ofList l) i).eq ys = .ok (decide (l.drop i = ys)) := by
  induction ys generalizing i with
  | nil =>
      unfold Iter.eq
      rw [next_ofList]
      by_cases hi : i < l.length
      · rw [List.getElem?_eq_getElem hi, List.drop_eq_getElem_cons hi]
        rfl
      · rw [List.getElem?_eq_none (by omega), List.drop_eq_nil_of_le (by omega)]
        rfl
  | cons y ys ih =>
      unfold Iter.eq
      rw [next_ofList]
      by_cases hi : i < l.length
      · rw [List.getElem?_eq_getElem hi, List.drop_eq_getElem_cons hi]
        show (if l[i] = y then (Iter.mk (ofList l) (i + 1)).eq ys else .ok false) = _
        by_cases hy : l[i] = y
        · simp only [hy, if_true, ih, List.cons.injEq, true_and]
        · simp only [hy, if_false, List.cons.injEq, false_and, decide_false]
      · rw [List.getElem?_eq_none (by omega), List.drop_eq_nil_of_le (by omega)]
        rfl

/-! ## Refinement of lists -/

/-- **All that can be read from a value is what can be read from the list.** -/
structure Refines (v : CompactVecString) (l : List String) : Prop where
  len : v.len = l.length
  get : ∀ i, v.get i = .ok l[i]?
  next : ∀ i, (Iter.mk v i).next = .ok (l[i]?, ⟨v, i + 1⟩)
  collect : ∀ n, l.length < n → v.iter.collect n = .ok (some l)
  join : ∀ sep, v.join sep = .ok (some (sep.intercalate l))
  eqVec : ∀ other, v.eqVec other = .ok (decide (l = other))

theorem refines_ofList (l : List String) : Refines (ofList l) l where
  len := length_index_ofList l
  get := get_ofList l
  next := next_ofList l
  collect n h := by
    rw [iter, collect_ofList l (by omega), List.drop_zero]
  join sep := by
    have hvec : (ofList l).toVec = .ok (some l) := by
      rw [toVec, len, length_index_ofList, iter, collect_ofList l (by omega), List.drop_zero]
    rw [CompactVecString.join, hvec]
    rfl
  eqVec other := by
    rw [eqVec, len, length_index_ofList]
    by_cases hlength : l.length = other.length
    · rw [if_neg (by simp [hlength]), iter, eq_ofList, List.drop_zero]
    · rw [if_pos hlength, decide_eq_false fun heq => hlength (congrArg List.length heq)]

/-- A value determines its list. -/
theorem Refines.unique {v : CompactVecString} {l l' : List String} (h : Refines v l)
    (h' : Refines v l') : l = l' := by
  apply List.ext_getElem?
  intro i
  exact Except.ok.inj ((h.get i).symm.trans (h'.get i))

/-- **A `CompactVecString` is a list of strings.**  For every constructor and every sequence of
pushes, pops and extends, all that is read is what is read from the list that the same
operations give, without a fault; and two such values have the same fields, which is the
derived equality, exactly if their lists are equal. -/
theorem compact_vec_string_refines_list (c : Constructor) (ops : List Op) :
    Refines (ops.foldl Op.apply c.build) (ops.foldl Op.onList c.list) ∧
      ∀ (c' : Constructor) (ops' : List Op),
        ops.foldl Op.apply c.build = ops'.foldl Op.apply c'.build ↔
          ops.foldl Op.onList c.list = ops'.foldl Op.onList c'.list := by
  refine ⟨?_, fun c' ops' => ?_⟩
  · rw [run_eq_ofList]
    exact refines_ofList _
  · rw [run_eq_ofList, run_eq_ofList]
    constructor
    · intro heq
      have hleft := refines_ofList (ops.foldl Op.onList c.list)
      rw [heq] at hleft
      exact hleft.unique (refines_ofList _)
    · intro heq
      rw [heq]

example : ((fromIter ["é", "", "b"]).push "c").pop.get 1 = .ok (some "") := by decide +kernel

end CompactVecString

end RabbitDigger
