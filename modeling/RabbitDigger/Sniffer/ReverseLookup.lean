import Mathlib.Data.List.DropRight
import Mathlib.Logic.Function.Basic
import RabbitDigger.Interface.Address

/-!
# The reverse lookup of the DNS sniffer

`rd-std/src/sniffer/service.rs`: `record_packet` remembers, for every address in the answers of a
DNS packet, the name that was asked for, and for every `CNAME` in them the name that stands for
it; `reverse_lookup` goes from an address to a name, and from there along the remembered `CNAME`s
back to the name that a client has really asked for.

The two caches are LRU caches whose entries vanish at any time.  All that is assumed of them is
that an access gives **the value inserted last under the key, or nothing**: so a cache is the
values inserted last (`LruCache`), and every access has a flag of its own that says whether the
entry is still there (`kept`).  The DNS decoder is a parameter, a function of the bytes.

Packets can say anything, and later packets rewire what earlier ones have said, so the walk along
the `CNAME`s may run into a cycle.  `reverse_lookup_from_history` says that it ends anyway, and
what it returns in terms of **the packets alone**: of the last packets that answered the address
and that listed a name as a `CNAME`.
-/

namespace RabbitDigger.Sniffer

/-! ## The caches -/

/-- `lru_time_cache::LruCache`: the value inserted last under each key. -/
structure LruCache (κ ω : Type) where
  last : κ → Option ω

namespace LruCache

variable {κ ω : Type}

def new : LruCache κ ω := ⟨fun _ => none⟩

/-- `insert`. -/
def insert [DecidableEq κ] (cache : LruCache κ ω) (key : κ) (value : ω) : LruCache κ ω :=
  ⟨Function.update cache.last key (some value)⟩

/-- `get` and `peek`: nothing if the entry has been evicted or has expired. -/
def get (cache : LruCache κ ω) (kept : Bool) (key : κ) : Option ω :=
  if kept then cache.last key else none

theorem last_insert [DecidableEq κ] (cache : LruCache κ ω) (key : κ) (value : ω) (k : κ) :
    (cache.insert key value).last k = if key = k then some value else cache.last k := by
  show Function.update cache.last key (some value) k = _
  by_cases h : key = k
  · subst h
    rw [if_pos rfl, Function.update_self]
  · rw [if_neg h, Function.update_of_ne (Ne.symm h)]

end LruCache

/-! ## DNS messages -/

/-- `trust_dns_proto::rr::RData`. -/
inductive RData where
  | a (addr : BitVec 32)
  | aaaa (addr : BitVec 128)
  | cname (name : String)
  | other
deriving Repr, DecidableEq

/-- `trust_dns_proto::op::Message`: the names of the questions and the data of the answers, as
`to_utf8` and `data` give them. -/
structure Message where
  queries : List String
  answers : List (Option RData)
deriving Repr, DecidableEq

/-- `trim_end_matches('.')`. -/
def trimEndMatches (name : String) : String :=
  String.ofList (name.toList.rdropWhile (· = '.'))

/-! ## The service -/

/-- `Inner`. -/
structure Inner where
  records : LruCache IpAddr String
  cnameMap : LruCache String String

/-- `ReverseLookup::new`. -/
def Inner.new : Inner := ⟨.new, .new⟩

/-- The body of the loop of `record_packet`. -/
def recordData (domain : String) (inner : Inner) : RData → Inner
  | .a addr => { inner with records := inner.records.insert (.v4 addr) domain }
  | .aaaa addr => { inner with records := inner.records.insert (.v6 addr) domain }
  | .cname cname =>
      { inner with cnameMap := inner.cnameMap.insert (trimEndMatches cname) domain }
  | .other => inner

/-- `record_packet`. -/
def recordPacket (decode : Bytes → Option Message) (inner : Inner) (packet : Bytes) : Inner :=
  match decode packet with
  | some ⟨[question], answers⟩ =>
      (answers.filterMap id).foldl (recordData (trimEndMatches question)) inner
  | _ => inner

/-- The loop of `reverse_lookup`, for a number of passes: `limit` and `d` are its variables, and
`kept` says of the accesses to come whether they find their entry.  `none` if it is still
running. -/
def lookupLoop (cnameMap : LruCache String String) : ℕ → (ℕ → Bool) → ℕ → String → Option String
  | 0, _, _, _ => none
  | passes + 1, kept, limit, d =>
      match cnameMap.get (kept 0) d with
      | some r =>
          if r = d ∨ limit = 0 then some d
          else lookupLoop cnameMap passes (fun i => kept (i + 1)) (limit - 1) r
      | none => some d

/-- `reverse_lookup`: the first access is the one to `records`. -/
def reverseLookup (passes : ℕ) (kept : ℕ → Bool) (inner : Inner) (addr : IpAddr) :
    Option (Option String) :=
  match inner.records.get (kept 0) addr with
  | some d => (lookupLoop inner.cnameMap passes (fun i => kept (i + 1)) 16 d).map some
  | none => some none

/-- What is left of packets that have been recorded one after the other. -/
def recordAll (decode : Bytes → Option Message) (packets : List Bytes) : Inner :=
  packets.foldl (recordPacket decode) .new

/-! ## The history of packets -/

section History

variable (decode : Bytes → Option Message)

/-- The name in the sole question of a packet; nothing if it does not decode or has another
number of questions. -/
def soleQuestion (packet : Bytes) : Option String :=
  match decode packet with
  | some ⟨[question], _⟩ => some (trimEndMatches question)
  | _ => none

/-- The data in the answers of a packet. -/
def answersOf (packet : Bytes) : List RData :=
  ((decode packet).map fun msg => msg.answers.filterMap id).getD []

/-- The address that an answer gives. -/
def RData.addr? : RData → Option IpAddr
  | .a addr => some (.v4 addr)
  | .aaaa addr => some (.v6 addr)
  | _ => none

/-- The name that an answer lists as a `CNAME`. -/
def RData.cname? : RData → Option String
  | .cname name => some (trimEndMatches name)
  | _ => none

/-- The question of the last packet with an answer of a kind. -/
def lastQuestion (kind : RData → Bool) (packets : List Bytes) : Option String :=
  (packets.filterMap fun packet =>
    if (answersOf decode packet).any kind then soleQuestion decode packet else none).getLast?

/-- The question of the last packet that answered an address. -/
def lastAnswering (packets : List Bytes) (addr : IpAddr) : Option String :=
  lastQuestion decode (fun data => data.addr? = some addr) packets

/-- The question of the last packet that listed a name as a `CNAME`. -/
def lastListing (packets : List Bytes) (name : String) : Option String :=
  lastQuestion decode (fun data => data.cname? = some name) packets

/-- **What a lookup returns, said in terms of the packets.**  Nothing if no packet that answered
the address is retained.  Otherwise the last of the names `names 0`, …, `names k`: the first is
the question of the last packet that answered the address, each other one the question of the
last packet that listed the one before it, and it is the last because the next one is not
retained, or is there no more, or would be the same, or because there have been 16. -/
def Found (packets : List Bytes) (kept : ℕ → Bool) (addr : IpAddr) (result : Option String) :
    Prop :=
  if kept 0 = true ∧ (lastAnswering decode packets addr).isSome then
    ∃ names : ℕ → String, ∃ k ≤ 16, result = some (names k) ∧
      lastAnswering decode packets addr = some (names 0) ∧
      (∀ i < k, kept (i + 1) = true ∧
        lastListing decode packets (names i) = some (names (i + 1)) ∧
        names (i + 1) ≠ names i) ∧
      (kept (k + 1) = false ∨ lastListing decode packets (names k) = none ∨
        lastListing decode packets (names k) = some (names k) ∨ k = 16)
  else
    result = none

end History

/-! ## What the packets leave in the caches -/

section Written

variable (decode : Bytes → Option Message) (view : Inner → Option String) (kind : RData → Bool)
  (hdata : ∀ domain inner data,
    view (recordData domain inner data) = if kind data then some domain else view inner)

include hdata

/-- One entry of the caches, after the loop of `record_packet`. -/
theorem view_foldl (domain : String) (answers : List RData) (inner : Inner) :
    view (answers.foldl (recordData domain) inner)
      = if answers.any kind then some domain else view inner := by
  induction answers generalizing inner with
  | nil => rfl
  | cons data rest ih =>
      rw [List.foldl_cons, ih, hdata, List.any_cons]
      cases kind data <;> cases rest.any kind <;> rfl

theorem view_recordPacket (inner : Inner) (packet : Bytes) :
    view (recordPacket decode inner packet)
      = (if (answersOf decode packet).any kind then soleQuestion decode packet else none).or
          (view inner) := by
  unfold recordPacket soleQuestion answersOf
  cases decode packet with
  | none => rfl
  | some msg =>
      obtain ⟨queries, answers⟩ := msg
      rcases queries with _ | ⟨question, _ | ⟨other, more⟩⟩
      · show view inner = _
        split <;> rfl
      · show view ((answers.filterMap id).foldl _ inner) = _
        rw [view_foldl view kind hdata, Option.map_some, Option.getD_some]
        split <;> rfl
      · show view inner = _
        split <;> rfl

/-- **An entry is the question of the last packet that wrote it.** -/
theorem view_recordAll (hnew : view .new = none) (packets : List Bytes) :
    view (recordAll decode packets) = lastQuestion decode kind packets := by
  unfold recordAll lastQuestion
  induction packets using List.reverseRecOn with
  | nil => exact hnew
  | append_singleton packets packet ih =>
      rw [List.foldl_append, List.foldl_cons, List.foldl_nil,
        view_recordPacket decode view kind hdata, ih,
        List.filterMap_append, List.getLast?_append]
      congr 1
      rw [List.filterMap_cons]
      cases (if (answersOf decode packet).any kind then soleQuestion decode packet else none) <;>
        rfl

end Written

section Caches

variable (decode : Bytes → Option Message) (packets : List Bytes)

theorem records_recordAll (addr : IpAddr) :
    (recordAll decode packets).records.last addr = lastAnswering decode packets addr := by
  refine view_recordAll decode (fun inner => inner.records.last addr) _ ?_ rfl packets
  intro domain inner data
  cases data with
  | a | aaaa => simp [recordData, LruCache.last_insert, RData.addr?]
  | cname | other => rfl

theorem cnameMap_recordAll (name : String) :
    (recordAll decode packets).cnameMap.last name = lastListing decode packets name := by
  refine view_recordAll decode (fun inner => inner.cnameMap.last name) _ ?_ rfl packets
  intro domain inner data
  cases data with
  | a | aaaa | other => rfl
  | cname cname => simp [recordData, LruCache.last_insert, RData.cname?]

/-- The questions in the history are those of its packets. -/
theorem soleQuestion_of_lastQuestion {kind : RData → Bool} {name : String}
    (h : lastQuestion decode kind packets = some name) :
    ∃ packet ∈ packets, soleQuestion decode packet = some name := by
  obtain ⟨packet, hmem, hpacket⟩ := List.mem_filterMap.mp (List.mem_of_getLast? h)
  refine ⟨packet, hmem, ?_⟩
  split at hpacket
  · exact hpacket
  · cases hpacket

end Caches

/-! ## The walk -/

/-- **The walk ends**, after at most `limit` replacements, and this is where it has been. -/
theorem lookupLoop_walk (cnameMap : LruCache String String) (limit : ℕ) :
    ∀ (passes : ℕ) (kept : ℕ → Bool) (d : String), limit < passes →
      ∃ names : ℕ → String, ∃ k ≤ limit,
        lookupLoop cnameMap passes kept limit d = some (names k) ∧ names 0 = d ∧
        (∀ i < k, kept i = true ∧ cnameMap.last (names i) = some (names (i + 1)) ∧
          names (i + 1) ≠ names i) ∧
        (kept k = false ∨ cnameMap.last (names k) = none ∨
          cnameMap.last (names k) = some (names k) ∨ k = limit) := by
  induction limit with
  | zero =>
      intro passes kept d hpasses
      obtain ⟨passes, rfl⟩ := Nat.exists_eq_succ_of_ne_zero hpasses.ne'
      refine ⟨fun _ => d, 0, le_rfl, ?_, rfl, fun i hi => absurd hi (Nat.not_lt_zero i),
        .inr (.inr (.inr rfl))⟩
      unfold lookupLoop
      cases cnameMap.get (kept 0) d with
      | none => rfl
      | some r => exact if_pos (.inr rfl)
  | succ limit ih =>
      intro passes kept d hpasses
      obtain ⟨passes, rfl⟩ := Nat.exists_eq_succ_of_ne_zero (Nat.ne_zero_of_lt hpasses)
      -- the walk stops at once, or goes on from the next name
      have hstop : (kept 0 = false ∨ cnameMap.last d = none ∨ cnameMap.last d = some d) →
          lookupLoop cnameMap (passes + 1) kept (limit + 1) d = some d := by
        intro h
        unfold lookupLoop LruCache.get
        rcases h with h | h | h
        · rw [h]
          rfl
        · rw [h, ite_self]
        · rw [h]
          cases kept 0 with
          | false => rfl
          | true => exact if_pos (.inl rfl)
      by_cases hend : kept 0 = false ∨ cnameMap.last d = none ∨ cnameMap.last d = some d
      · refine ⟨fun _ => d, 0, Nat.zero_le _, hstop hend, rfl,
          fun i hi => absurd hi (Nat.not_lt_zero i), ?_⟩
        rcases hend with h | h | h
        · exact .inl h
        · exact .inr (.inl h)
        · exact .inr (.inr (.inl h))
      · simp only [not_or, Bool.not_eq_false] at hend
        obtain ⟨hkept, hsome, hne⟩ := hend
        obtain ⟨r, hr⟩ := Option.ne_none_iff_exists'.mp hsome
        have hrd : r ≠ d := fun h => hne (h ▸ hr)
        obtain ⟨names, k, hk, hloop, hzero, hwalk, hlast⟩ :=
          ih passes (fun i => kept (i + 1)) r (Nat.succ_lt_succ_iff.mp hpasses)
        refine ⟨fun i => Nat.casesOn i d names, k + 1, Nat.succ_le_succ hk, ?_, rfl, ?_, ?_⟩
        · rw [← hloop]
          conv_lhs => unfold lookupLoop LruCache.get
          rw [hkept, if_pos rfl, hr]
          exact if_neg (by simp [hrd])
        · intro i hi
          cases i with
          | zero =>
              rw [← hzero] at hr hrd
              exact ⟨hkept, hr, hrd⟩
          | succ i => exact hwalk i (Nat.succ_lt_succ_iff.mp hi)
        · rcases hlast with h | h | h | h
          · exact .inl h
          · exact .inr (.inl h)
          · exact .inr (.inr (.inl h))
          · exact .inr (.inr (.inr (congrArg (· + 1) h)))

/-! ## Lookups -/

/-- The names on the way are questions of packets. -/
theorem soleQuestion_of_walk (decode : Bytes → Option Message) (packets : List Bytes)
    {names : ℕ → String} {addr : IpAddr} {k : ℕ}
    (hstart : lastAnswering decode packets addr = some (names 0))
    (hwalk : ∀ i < k, lastListing decode packets (names i) = some (names (i + 1))) :
    ∃ packet ∈ packets, soleQuestion decode packet = some (names k) := by
  cases k with
  | zero => exact soleQuestion_of_lastQuestion decode packets hstart
  | succ k => exact soleQuestion_of_lastQuestion decode packets (hwalk k (Nat.lt_succ_self k))

/-- **A lookup ends and returns what the history of packets says**, for every decoder, all
packets, every address and whichever entries the caches have lost; and a name that is returned was
the sole question of a recorded packet. -/
theorem reverse_lookup_from_history (decode : Bytes → Option Message) (packets : List Bytes)
    (kept : ℕ → Bool) (addr : IpAddr) :
    ∃ bound, ∀ passes, bound ≤ passes → ∃ result,
      reverseLookup passes kept (recordAll decode packets) addr = some result ∧
      Found decode packets kept addr result ∧
      ∀ name, result = some name →
        ∃ packet ∈ packets, soleQuestion decode packet = some name := by
  refine ⟨17, fun passes hpasses => ?_⟩
  unfold reverseLookup LruCache.get Found
  rw [records_recordAll]
  by_cases hfound : kept 0 = true ∧ (lastAnswering decode packets addr).isSome
  · obtain ⟨hkept, hsome⟩ := id hfound
    obtain ⟨d, hd⟩ := Option.isSome_iff_exists.mp hsome
    obtain ⟨names, k, hk, hloop, rfl, hwalk, hlast⟩ :=
      lookupLoop_walk (recordAll decode packets).cnameMap 16 passes (fun i => kept (i + 1)) d
        (Nat.lt_of_succ_le hpasses)
    simp only [cnameMap_recordAll] at hwalk hlast
    refine ⟨some (names k), ?_, ?_, ?_⟩
    · rw [if_pos hkept, hd]
      exact congrArg (Option.map some) hloop
    · rw [if_pos hfound]
      exact ⟨names, k, hk, rfl, hd, hwalk, hlast⟩
    · rintro _ ⟨⟩
      exact soleQuestion_of_walk decode packets hd fun i hi => (hwalk i hi).2.1
  · refine ⟨none, ?_, by rw [if_neg hfound], fun name h => by cases h⟩
    cases hkept : kept 0 with
    | false => rfl
    | true =>
        have hnone : lastAnswering decode packets addr = none := by
          rw [← Option.not_isSome_iff_eq_none]
          exact fun hsome => hfound ⟨hkept, hsome⟩
        rw [hnone]
        rfl

/-- A name and its alias, and then a packet that makes a cycle of the two. -/
example :
    let decode : Bytes → Option Message := fun packet =>
      if packet = [0] then some ⟨["a.example."], [some (.cname "b.example."), some (.a 1)]⟩
      else if packet = [1] then
        some ⟨["b.example."], [none, some (.a 2), some (.cname "a.example")]⟩
      else none
    reverseLookup 17 (fun _ => true) (recordAll decode [[0], [2]]) (.v4 1)
        = some (some "a.example") ∧
      reverseLookup 17 (fun _ => true) (recordAll decode [[0], [1]]) (.v4 2)
        = some (some "b.example") ∧
      reverseLookup 17 (fun _ => false) (recordAll decode [[0]]) (.v4 1) = some none := by
  decide

end RabbitDigger.Sniffer
