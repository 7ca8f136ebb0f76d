import Mathlib.Data.List.AList
import RabbitDigger.Interface.AddressText

/-!
# Connection contexts

`rd-interface/src/context.rs`: a `Context` travels with a connection and carries
JSON values under string keys.  A **common field** is a key with a type; reading
one decodes the value stored under its key, and a value that does not decode is
an error — not an absent field.
-/

namespace RabbitDigger

/-- A context stores a source endpoint, a process info and other any values
during connecting. -/
structure Context where
  data : AList fun _ : String => Value
  netList : List String

/-- `CommonField`: the key of a common field, and its `Deserialize`. -/
structure CommonField (α : Type) where
  key : String
  decode : StdNet → Value → Except String α

namespace CommonField

/-- Strings are decoded by a `FromStr`; every other value is of the wrong type. -/
def ofFromStr {α : Type} (key : String) (fromStr : StdNet → String → Option α) :
    CommonField α where
  key := key
  decode std
    | .string s =>
        match fromStr std s with
        | some a => .ok a
        | none => .error ("invalid " ++ key)
    | _ => .error "invalid type"

/-- format: `domain:port` -/
def destDomain : CommonField AddressDomain :=
  ofFromStr "dest_domain" fun _ s => (AddressDomain.fromStr s).toOption

/-- `DestSocketAddr`. -/
def destSocketAddr : CommonField SocketAddr :=
  ofFromStr "dest_socket_addr" fun std s => std.parseSocketAddr s

/-- `SrcSocketAddr`. -/
def srcSocketAddr : CommonField SocketAddr :=
  ofFromStr "src_socket_addr" fun std s => std.parseSocketAddr s

end CommonField

/-- A common field that is stored as well: its `Serialize`. -/
structure StoredField (α : Type) extends CommonField α where
  encode : StdText → α → Except String Value

namespace StoredField

/-- `DestDomain` is written by the `Display` of the domain. -/
def destDomain : StoredField AddressDomain where
  toCommonField := .destDomain
  encode _ domain := .ok (.string domain.display)

/-- `DestSocketAddr` is written by the `Display` of the address. -/
def destSocketAddr : StoredField SocketAddr where
  toCommonField := .destSocketAddr
  encode text addr := .ok (.string (addr.display text))

end StoredField

namespace Context

/-- new a empty context -/
def new : Context := ⟨∅, []⟩

/-- `get`: the decoded value under a key, if there is a value. -/
def get {α : Type} (ctx : Context) (key : String) (decode : Value → Except String α) :
    Except ContextError (Option α) :=
  match ctx.data.lookup key with
  | none => .ok none
  | some value =>
      match decode value with
      | .ok a => .ok (some a)
      | .error message => .error (.serde message)

/-- `get_common`. -/
def getCommon {α : Type} (std : StdNet) (field : CommonField α) (ctx : Context) :
    Except ContextError (Option α) :=
  ctx.get field.key (field.decode std)

/-- `insert_value`. -/
def insertValue (ctx : Context) (key : String) (value : Value) : Context :=
  { ctx with data := ctx.data.insert key value }

/-- `insert`.  A value that cannot be serialized is not inserted. -/
def insert (ctx : Context) (key : String) (value : Except String Value) :
    Context × Except ContextError Unit :=
  match value with
  | .ok value => (ctx.insertValue key value, .ok ())
  | .error message => (ctx, .error (.serde message))

/-- `insert_common`. -/
def insertCommon {α : Type} (text : StdText) (field : StoredField α) (ctx : Context) (value : α) :
    Context × Except ContextError Unit :=
  ctx.insert field.key (field.encode text value)

/-- `remove`. -/
def remove (ctx : Context) (key : String) : Context × Except ContextError Unit :=
  match ctx.data.lookup key with
  | some _ => ({ ctx with data := ctx.data.erase key }, .ok ())
  | none => (ctx, .error .nonExist)

/-- `remove_value`. -/
def removeValue (ctx : Context) (key : String) : Context :=
  { ctx with data := ctx.data.erase key }

/-- `append_net`. -/
def appendNet (ctx : Context) (name : String) : Context :=
  { ctx with netList := ctx.netList ++ [name] }

/-- `take_net_list`. -/
def takeNetList (ctx : Context) : Context × List String :=
  ({ ctx with netList := [] }, ctx.netList)

/-! ### Reading after an insertion -/

theorem getCommon_congr {α : Type} (std : StdNet) (field : CommonField α) {ctx ctx' : Context}
    (h : ctx.data.lookup field.key = ctx'.data.lookup field.key) :
    ctx.getCommon std field = ctx'.getCommon std field := by
  unfold getCommon get
  rw [h]

/-- The value that was inserted is the one that is decoded. -/
theorem getCommon_insertValue_self {α : Type} (std : StdNet) (field : CommonField α)
    (ctx : Context) {value : Value} {a : α} (h : field.decode std value = .ok a) :
    (ctx.insertValue field.key value).getCommon std field = .ok (some a) := by
  simp only [getCommon, get, insertValue, AList.lookup_insert, h]

/-- The other fields are as before. -/
theorem getCommon_insertValue_of_ne {α : Type} (std : StdNet) (field : CommonField α)
    (ctx : Context) {key : String} (value : Value) (h : field.key ≠ key) :
    (ctx.insertValue key value).getCommon std field = ctx.getCommon std field := by
  apply getCommon_congr
  simp only [insertValue, AList.lookup_insert_ne h]

end Context

end RabbitDigger
