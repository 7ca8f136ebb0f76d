import RabbitDigger.Interface.CompactVecString
import RabbitDigger.Interface.Context

/-!
# Contexts as JSON values

`Context::to_value` and `from_value` (`rd-interface/src/context.rs`) with the serialization of
the net list (`config/compact_vec_string.rs`): a context becomes one JSON object, in which the
net list stands **beside the user's keys** under the name `net_list`.  A net list of length
one is written as a bare string, any other as an array of strings.

The name is not reserved anywhere else: `insert` and `insert_value` take any key.  A value that
a user has stored under `net_list` is overwritten by `to_value` and gone after the round trip;
everything else comes back (`context_round_trip_iff`).

Here a context holds its net list as the source does (`StoredContext`).  For the rest of the
development it is enough to know the list of names (`Context`), and `run_refines` says that the
two go together.
-/

namespace RabbitDigger

namespace CompactVecString

/-! ## The net list -/

/-- `Serialize`. -/
def serialize (v : CompactVecString) : Except Fault Value := do
  let single ← if v.len = 1 then v.get 0 else .ok none
  match single with
  | some s => return .string s
  | none => return .array (((← v.toVec).getD []).map .string)

/-- `visit_seq`: every element has to be a string. -/
def visitSeq : CompactVecString → List Value → Except String CompactVecString
  | values, [] => .ok values.shrinkToFit
  | values, .string value :: rest => visitSeq (values.push value) rest
  | _, _ :: _ => .error "invalid type, expected a string"

/-- `Deserialize`. -/
def deserialize : Value → Except String CompactVecString
  | .string value => .ok ((withCapacity 1).push value)
  | .array items => visitSeq (withCapacity items.length) items
  | _ => .error "invalid type, expected string or [string]"

/-- One string is written bare, any other number of them as an array. -/
theorem serialize_ofList (l : List String) :
    (ofList l).serialize =
      .ok (if h : l.length = 1 then .string l[0] else .array (l.map .string)) := by
  have hvec : (ofList l).toVec = .ok (some l) := by
    rw [toVec, (refines_ofList l).len]
    exact (refines_ofList l).collect _ (Nat.lt_succ_self _)
  unfold serialize
  rw [(refines_ofList l).len]
  by_cases h : l.length = 1
  · simp only [h, if_true, dif_pos, (refines_ofList l).get,
      List.getElem?_eq_getElem (h ▸ Nat.one_pos)]
    rfl
  · simp only [h, if_false, dif_neg, not_false_eq_true, hvec]
    rfl

theorem visitSeq_ofList (l items : List String) :
    visitSeq (ofList l) (items.map .string) = .ok (ofList (l ++ items)) := by
  induction items generalizing l with
  | nil =>
      rw [List.append_nil]
      rfl
  | cons s items ih =>
      rw [List.map_cons, visitSeq, push_ofList, ih, List.append_assoc, List.singleton_append]

/-- **The net list survives.** -/
theorem deserialize_serialize (l : List String) :
    ∃ value, (ofList l).serialize = .ok value ∧ deserialize value = .ok (ofList l) := by
  refine ⟨_, serialize_ofList l, ?_⟩
  by_cases h : l.length = 1
  · obtain ⟨s, rfl⟩ := List.length_eq_one_iff.mp h
    rw [dif_pos h]
    exact congrArg Except.ok (push_ofList [] s)
  · rw [dif_neg h]
    exact visitSeq_ofList [] l

end CompactVecString

/-! ## Contexts -/

/-- `Context`. -/
structure StoredContext where
  data : AList fun _ : String => Value
  netList : CompactVecString

/-- The entries of a `serde_json::Map`. -/
def toFields (map : AList fun _ : String => Value) : List (String × Value) :=
  map.entries.map fun entry => (entry.1, entry.2)

/-- The `serde_json::Map` with these entries. -/
def ofFields (fields : List (String × Value)) : AList fun _ : String => Value :=
  (fields.map fun field => (⟨field.1, field.2⟩ : Σ _ : String, Value)).toAList

theorem lookup_ofFields_toFields (map : AList fun _ : String => Value) (key : String) :
    (ofFields (toFields map)).lookup key = map.lookup key := by
  have hentries : (toFields map).map (fun field => (⟨field.1, field.2⟩ : Σ _ : String, Value))
      = map.entries := by
    rw [toFields, List.map_map]
    exact List.map_id _
  rw [ofFields, hentries, AList.lookup_to_alist]
  rfl

namespace StoredContext

open CompactVecString

/-- new a empty context -/
def new : StoredContext := ⟨∅, withCapacity 16⟩

/-- `insert_value`. -/
def insertValue (ctx : StoredContext) (key : String) (value : Value) : StoredContext :=
  { ctx with data := ctx.data.insert key value }

/-- `insert`.  A value that cannot be serialized is not inserted. -/
def insert (ctx : StoredContext) (key : String) (value : Except String Value) :
    StoredContext × Except ContextError Unit :=
  match value with
  | .ok value => (ctx.insertValue key value, .ok ())
  | .error message => (ctx, .error (.serde message))

/-- `insert_common`. -/
def insertCommon {α : Type} (text : StdText) (field : StoredField α) (ctx : StoredContext)
    (value : α) : StoredContext × Except ContextError Unit :=
  ctx.insert field.key (field.encode text value)

/-- `remove`. -/
def remove (ctx : StoredContext) (key : String) : StoredContext × Except ContextError Unit :=
  match ctx.data.lookup key with
  | some _ => ({ ctx with data := ctx.data.erase key }, .ok ())
  | none => (ctx, .error .nonExist)

/-- `remove_value`. -/
def removeValue (ctx : StoredContext) (key : String) : StoredContext :=
  { ctx with data := ctx.data.erase key }

/-- `append_net`: Add net to net_list -/
def appendNet (ctx : StoredContext) (name : String) : StoredContext :=
  { ctx with netList := ctx.netList.push name }

/-- `take_net_list`. -/
def takeNetList (ctx : StoredContext) : StoredContext × CompactVecString :=
  ({ ctx with netList := CompactVecString.new }, ctx.netList)

/-- `to_value`. -/
def toValue (ctx : StoredContext) : Except Fault Value := do
  let netList ← ctx.netList.serialize
  return .object (toFields (ctx.data.insert "net_list" netList))

/-- `from_value`. -/
def fromValue : Value → Except ContextError StoredContext
  | .object fields =>
      let map := ofFields fields
      match map.lookup "net_list" with
      | none => .ok ⟨map, withCapacity 16⟩
      | some netList =>
          match deserialize netList with
          | .error message => .error (.serde message)
          | .ok netList => .ok ⟨map.erase "net_list", netList⟩
  | _ => .error .badFormat

/-- **The round trip**: it succeeds, with the same data and the same net list. -/
def RoundTrips (ctx : StoredContext) : Prop :=
  ∃ value ctx', ctx.toValue = .ok value ∧ fromValue value = .ok ctx' ∧
    (∀ key, ctx'.data.lookup key = ctx.data.lookup key) ∧ ctx'.netList = ctx.netList

/-! ## Any operations -/

/-- The operations on a context. -/
inductive Op : Type 1 where
  | insert (key : String) (value : Except String Value)
  | insertValue (key : String) (value : Value)
  | insertCommon {α : Type} (text : StdText) (field : StoredField α) (value : α)
  | remove (key : String)
  | removeValue (key : String)
  | appendNet (name : String)
  | takeNetList

/-- What an operation does. -/
def Op.apply (ctx : StoredContext) : Op → StoredContext
  | .insert key value => (ctx.insert key value).1
  | .insertValue key value => ctx.insertValue key value
  | .insertCommon text field value => (ctx.insertCommon text field value).1
  | .remove key => (ctx.remove key).1
  | .removeValue key => ctx.removeValue key
  | .appendNet name => ctx.appendNet name
  | .takeNetList => ctx.takeNetList.1

/-- The same operation on the context of which only the names are known. -/
def Op.onContext (ctx : Context) : Op → Context
  | .insert key value => (ctx.insert key value).1
  | .insertValue key value => ctx.insertValue key value
  | .insertCommon text field value => (ctx.insertCommon text field value).1
  | .remove key => (ctx.remove key).1
  | .removeValue key => ctx.removeValue key
  | .appendNet name => ctx.appendNet name
  | .takeNetList => ctx.takeNetList.1

/-- A context as it is stored. -/
def ofContext (ctx : Context) : StoredContext := ⟨ctx.data, ofList ctx.netList⟩

/-- One operation. -/
theorem apply_ofContext (ctx : Context) (op : Op) :
    op.apply (ofContext ctx) = ofContext (op.onContext ctx) := by
  have hinsert : ∀ key value,
      ((ofContext ctx).insert key value).1 = ofContext (ctx.insert key value).1 := by
    intro key value
    cases value with
    | ok | error => rfl
  cases op with
  | insert key value => exact hinsert key value
  | insertValue | removeValue | takeNetList => rfl
  | insertCommon text field value => exact hinsert _ _
  | remove key =>
      simp only [Op.apply, Op.onContext, remove, Context.remove, ofContext]
      cases ctx.data.lookup key with
      | none | some => rfl
  | appendNet name =>
      simp only [Op.apply, Op.onContext, appendNet, Context.appendNet, ofContext, push_ofList]

/-- **What a context stores is determined by its data and the list of its nets.** -/
theorem run_refines (ops : List Op) :
    ops.foldl Op.apply new = ofContext (ops.foldl Op.onContext .new) := by
  have key : ∀ ctx : Context,
      ops.foldl Op.apply (ofContext ctx) = ofContext (ops.foldl Op.onContext ctx) := by
    induction ops with
    | nil => exact fun _ => rfl
    | cons op ops ih =>
        intro ctx
        rw [List.foldl_cons, apply_ofContext, ih, List.foldl_cons]
  exact key .new

/-! ## The round trip -/

/-- What comes back. -/
theorem fromValue_toValue (ctx : Context) :
    ∃ value ctx', (ofContext ctx).toValue = .ok value ∧ fromValue value = .ok ctx' ∧
      (∀ key, ctx'.data.lookup key = (ctx.data.erase "net_list").lookup key) ∧
      ctx'.netList = ofList ctx.netList := by
  obtain ⟨netList, hserialize, hdeserialize⟩ := deserialize_serialize ctx.netList
  have hvalue : (ofContext ctx).toValue
      = .ok (.object (toFields (ctx.data.insert "net_list" netList))) := by
    simp only [toValue, ofContext, hserialize]
    rfl
  have hlookup : (ofFields (toFields (ctx.data.insert "net_list" netList))).lookup "net_list"
      = some netList := by
    rw [lookup_ofFields_toFields, AList.lookup_insert]
  have hctx : fromValue (.object (toFields (ctx.data.insert "net_list" netList)))
      = .ok ⟨(ofFields (toFields (ctx.data.insert "net_list" netList))).erase "net_list",
        ofList ctx.netList⟩ := by
    simp only [fromValue, hlookup, hdeserialize]
  refine ⟨_, _, hvalue, hctx, ?_, rfl⟩
  intro key
  by_cases hkey : key = "net_list"
  · subst hkey
    rw [AList.lookup_erase, AList.lookup_erase]
  · rw [AList.lookup_erase_ne hkey, lookup_ofFields_toFields, AList.lookup_insert_ne hkey,
      AList.lookup_erase_ne hkey]

/-- The user's value under the name of the net list is what is lost. -/
theorem roundTrips_iff (ctx : Context) :
    (ofContext ctx).RoundTrips ↔ ctx.data.lookup "net_list" = none := by
  obtain ⟨value, ctx', hvalue, hctx', hdata, hnetList⟩ := fromValue_toValue ctx
  constructor
  · rintro ⟨value₁, ctx₁, hvalue₁, hctx₁, hsame, -⟩
    obtain rfl := Except.ok.inj (hvalue.symm.trans hvalue₁)
    obtain rfl := Except.ok.inj (hctx'.symm.trans hctx₁)
    have hlost := hdata "net_list"
    rw [AList.lookup_erase, hsame] at hlost
    exact hlost
  · intro hnone
    refine ⟨value, ctx', hvalue, hctx', fun key => ?_, hnetList⟩
    rw [hdata]
    by_cases hkey : key = "net_list"
    · subst hkey
      rw [AList.lookup_erase]
      exact hnone.symm
    · exact AList.lookup_erase_ne hkey

end StoredContext

/-- **A context survives the round trip through its JSON value if and only if nothing is stored
under `net_list`**, for every sequence of operations with any keys and values. -/
theorem context_round_trip_iff (ops : List StoredContext.Op) :
    (ops.foldl StoredContext.Op.apply .new).RoundTrips ↔
      (ops.foldl StoredContext.Op.apply .new).data.lookup "net_list" = none := by
  rw [StoredContext.run_refines]
  exact StoredContext.roundTrips_iff _

/-- **A value under the key `net_list` is lost.** -/
theorem value_under_net_list_lost :
    ¬ ([StoredContext.Op.insertValue "net_list" (.bool true)].foldl
      StoredContext.Op.apply .new).RoundTrips := by
  rintro ⟨value, ctx', hvalue, hctx', hdata, -⟩
  obtain rfl := Except.ok.inj hvalue
  obtain rfl := Except.ok.inj hctx'
  have hafter : some (Value.bool true) = none :=
    (AList.lookup_insert ∅).symm.trans ((hdata "net_list").symm.trans (AList.lookup_erase _ _))
  cases hafter

end RabbitDigger
