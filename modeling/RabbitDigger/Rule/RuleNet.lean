import RabbitDigger.Foundation.Transition
import RabbitDigger.Rule.Matcher

/-!
# The rule net and its cache

`rd-std/src/rule/rule_net.rs`: `Rule::get_rule` looks the match context up in a
shared LRU cache of rule indices, scans the rules in order if it is not there,
and stores the index of the first rule that matches.

Calls run concurrently.  A call takes the cache lock twice — for the lookup and
for the insertion — and everything between is its own; so the model gives each
call a program counter (`CallState`) and lets any call make its next step at any
time, new calls start at any time, and entries vanish from the cache at any time
(capacity, age and LRU order only decide *which* entries vanish).

The invariant is that **every cached index is the first match of its key**
(`CacheSound`).  It survives other calls' insertions because an insertion stores
the result of a complete scan, and it is enough for a hit because the cache
compares keys by an order that no matcher sees through
(`Matcher.matchRule_congr`).
-/

namespace RabbitDigger

open Transition

variable {deps : MatcherDeps} {Net : Type}

/-- `RuleItem`. -/
structure RuleItem (deps : MatcherDeps) (Net : Type) where
  targetName : String
  target : Net
  matcher : Matcher deps

/-! ## The cache -/

/-- The entries of `LruCache<MatchContext, usize>`, newest first. -/
abbrev RuleCache := List (MatchContext × ℕ)

namespace RuleCache

/-- `LruCache::get`: the value inserted last under a key that compares equal. -/
def get (cache : RuleCache) (key : MatchContext) : Option ℕ :=
  (cache.find? fun entry => entry.1.cmp key = .eq).map Prod.snd

/-- `LruCache::insert`: replaces the entry of a key that compares equal. -/
def insert (cache : RuleCache) (key : MatchContext) (index : ℕ) : RuleCache :=
  (key, index) :: cache.filter fun entry => entry.1.cmp key ≠ .eq

end RuleCache

/-! ## Calls of `get_rule` -/

/-- Where a call of `get_rule` is: at one of its two cache accesses, at the test
of a rule, or over. -/
inductive CallState (deps : MatcherDeps) (Net : Type) where
  | lookup (key : MatchContext)
  | scanning (key : MatchContext) (index : ℕ)
  | inserting (key : MatchContext) (index : ℕ)
  | returned (result : Except Error (RuleItem deps Net))
  | panicked

/-- A call of `get_rule`, with its arguments. -/
structure RuleCall (deps : MatcherDeps) (Net : Type) where
  ctx : Context
  target : Address
  state : CallState deps Net

namespace CallState

/-- `get_rule` up to its first cache access. -/
def enter (deps : MatcherDeps) (Net : Type) (ctx : Context) (target : Address) :
    CallState deps Net :=
  match MatchContext.fromContextAddress deps.std ctx target with
  | .error e => .returned (.error e)
  | .ok key => .lookup key

/-- The next step of a call: one cache access, or the test of one rule. -/
def advance (rules : List (RuleItem deps Net)) (cache : RuleCache) :
    CallState deps Net → Option (CallState deps Net × RuleCache)
  | .lookup key =>
      match cache.get key with
      | some index =>
          match rules[index]? with
          | some rule => some (.returned (.ok rule), cache)
          | none => some (.panicked, cache)
      | none => some (.scanning key 0, cache)
  | .scanning key index =>
      match rules[index]? with
      | some rule =>
          if rule.matcher.matchRule key then some (.inserting key index, cache)
          else some (.scanning key (index + 1), cache)
      | none => some (.returned (.error .notMatched), cache)
  | .inserting key index =>
      match rules[index]? with
      | some rule => some (.returned (.ok rule), cache.insert key index)
      | none => some (.panicked, cache)
  | .returned _ => none
  | .panicked => none

/-- An upper bound for the number of steps a call still has to make. -/
def work (rules : List (RuleItem deps Net)) : CallState deps Net → ℕ
  | .lookup _ => rules.length + 3
  | .scanning _ index => rules.length - index + 2
  | .inserting _ _ => 1
  | .returned _ => 0
  | .panicked => 0

end CallState

/-- The calls made so far and the cache they share. -/
structure RuleState (deps : MatcherDeps) (Net : Type) where
  cache : RuleCache
  calls : ℕ → Option (RuleCall deps Net)

/-- What can happen: a new call, the next step of a call, the loss of cache
entries. -/
inductive RuleEvent where
  | call (id : ℕ) (ctx : Context) (target : Address)
  | advance (id : ℕ)
  | evict (keep : MatchContext × ℕ → Bool)

/-- One event. -/
def RuleState.step (rules : List (RuleItem deps Net)) (s : RuleState deps Net) :
    RuleEvent → Option (RuleState deps Net)
  | .call id ctx target =>
      match s.calls id with
      | some _ => none
      | none =>
          some { s with
            calls := Function.update s.calls id
              (some ⟨ctx, target, CallState.enter deps Net ctx target⟩) }
  | .advance id =>
      match s.calls id with
      | none => none
      | some call =>
          match call.state.advance rules s.cache with
          | none => none
          | some (state, cache) =>
              some
                { cache := cache
                  calls := Function.update s.calls id
                    (some { call with state := state }) }
  | .evict keep => some { s with cache := s.cache.filter keep }

/-- The system of concurrent `get_rule` calls on one `Rule`. -/
def ruleSystem (rules : List (RuleItem deps Net)) :
    System (RuleState deps Net) RuleEvent where
  init := ⟨[], fun _ => none⟩
  step := RuleState.step rules

/-! ## The scan without a cache -/

/-- The index of the first rule that matches. -/
def firstMatch (rules : List (RuleItem deps Net)) (key : MatchContext) : Option ℕ :=
  rules.findIdx? fun rule => rule.matcher.matchRule key

/-- What `get_rule` computes if there is no cache: the first rule, in list
order, that matches. -/
def scanRules (rules : List (RuleItem deps Net)) (ctx : Context) (target : Address) :
    Except Error (RuleItem deps Net) :=
  match MatchContext.fromContextAddress deps.std ctx target with
  | .error e => .error e
  | .ok key =>
      match rules.find? fun rule => rule.matcher.matchRule key with
      | some rule => .ok rule
      | none => .error .notMatched

/-! ## First matches -/

section FirstMatch

variable {rules : List (RuleItem deps Net)} {key : MatchContext} {index : ℕ}

/-- Keys that the cache does not tell apart have the same first match. -/
theorem firstMatch_congr {key' : MatchContext} (h : key.cmp key' = .eq) :
    firstMatch rules key = firstMatch rules key' := by
  unfold firstMatch
  congr 1
  funext rule
  exact rule.matcher.matchRule_congr h

theorem firstMatch_lt (h : firstMatch rules key = some index) :
    index < rules.length := by
  obtain ⟨hlt, -⟩ := List.findIdx?_eq_some_iff_getElem.mp h
  exact hlt

/-- The rule at the first match is what the scan finds. -/
theorem find?_of_firstMatch {rule : RuleItem deps Net}
    (h : firstMatch rules key = some index) (hrule : rules[index]? = some rule) :
    rules.find? (fun rule => rule.matcher.matchRule key) = some rule := by
  obtain ⟨hlt, hmatch, hbefore⟩ := List.findIdx?_eq_some_iff_getElem.mp h
  rw [List.getElem?_eq_getElem hlt, Option.some.injEq] at hrule
  rw [List.find?_eq_some_iff_getElem]
  subst hrule
  exact ⟨hmatch, index, hlt, rfl, fun j hj => by simpa using hbefore j hj⟩

/-- No rule before `index` matches. -/
def NoMatchBefore (rules : List (RuleItem deps Net)) (key : MatchContext)
    (index : ℕ) : Prop :=
  ∀ j rule, j < index → rules[j]? = some rule → rule.matcher.matchRule key = false

theorem firstMatch_of_scan {rule : RuleItem deps Net}
    (hbefore : NoMatchBefore rules key index) (hrule : rules[index]? = some rule)
    (hmatch : rule.matcher.matchRule key = true) :
    firstMatch rules key = some index := by
  obtain ⟨hlt, rfl⟩ := List.getElem?_eq_some_iff.mp hrule
  refine List.findIdx?_eq_some_iff_getElem.mpr ⟨hlt, hmatch, fun j hj => ?_⟩
  have hj' : j < rules.length := by omega
  simpa using hbefore j rules[j] hj (List.getElem?_eq_getElem hj')

theorem NoMatchBefore.succ {rule : RuleItem deps Net}
    (hbefore : NoMatchBefore rules key index) (hrule : rules[index]? = some rule)
    (hmatch : rule.matcher.matchRule key = false) :
    NoMatchBefore rules key (index + 1) := by
  intro j other hj hother
  rcases Nat.lt_succ_iff_lt_or_eq.mp hj with hlt | rfl
  · exact hbefore j other hlt hother
  · rw [hrule] at hother
    cases hother
    exact hmatch

/-- A scan that runs off the end of the list has found nothing. -/
theorem find?_of_exhausted (hbefore : NoMatchBefore rules key index)
    (hend : rules[index]? = none) :
    rules.find? (fun rule => rule.matcher.matchRule key) = none := by
  rw [List.find?_eq_none]
  intro rule hmem
  obtain ⟨j, hj, rfl⟩ := List.mem_iff_getElem.mp hmem
  have hlen := List.getElem?_eq_none_iff.mp hend
  simpa using hbefore j rules[j] (by omega) (List.getElem?_eq_getElem hj)

end FirstMatch

/-! ## The invariant -/

/-- **Every cached index is the first match of its key.** -/
def CacheSound (rules : List (RuleItem deps Net)) (cache : RuleCache) : Prop :=
  ∀ entry ∈ cache, firstMatch rules entry.1 = some entry.2

/-- What is known about a call at each of its program points. -/
def RuleCall.Sound (rules : List (RuleItem deps Net)) (call : RuleCall deps Net) :
    Prop :=
  match call.state with
  | .lookup key =>
      MatchContext.fromContextAddress deps.std call.ctx call.target = .ok key
  | .scanning key index =>
      MatchContext.fromContextAddress deps.std call.ctx call.target = .ok key ∧
        NoMatchBefore rules key index
  | .inserting key index =>
      MatchContext.fromContextAddress deps.std call.ctx call.target = .ok key ∧
        firstMatch rules key = some index
  | .returned result => result = scanRules rules call.ctx call.target
  | .panicked => False

/-- The invariant of the system. -/
structure RuleState.Sound (rules : List (RuleItem deps Net))
    (s : RuleState deps Net) : Prop where
  cache : CacheSound rules s.cache
  calls : ∀ id call, s.calls id = some call → call.Sound rules

section Invariant

variable {rules : List (RuleItem deps Net)} {cache : RuleCache}

/-- A hit yields the first match of the key asked for, not only of the key
stored. -/
theorem CacheSound.get (sound : CacheSound rules cache) {key : MatchContext}
    {index : ℕ} (h : cache.get key = some index) :
    firstMatch rules key = some index := by
  rw [RuleCache.get, Option.map_eq_some_iff] at h
  obtain ⟨entry, hfind, rfl⟩ := h
  have hcmp : entry.1.cmp key = .eq := by simpa using List.find?_some hfind
  rw [← firstMatch_congr hcmp]
  exact sound entry (List.mem_of_find?_eq_some hfind)

theorem CacheSound.filter (sound : CacheSound rules cache)
    (keep : MatchContext × ℕ → Bool) : CacheSound rules (cache.filter keep) :=
  fun entry mem => sound entry (List.mem_of_mem_filter mem)

theorem CacheSound.insert (sound : CacheSound rules cache) {key : MatchContext}
    {index : ℕ} (h : firstMatch rules key = some index) :
    CacheSound rules (cache.insert key index) := by
  intro entry mem
  rcases List.mem_cons.mp mem with rfl | mem
  · exact h
  · exact sound.filter _ entry mem

theorem scanRules_of_firstMatch {ctx : Context} {target : Address}
    {key : MatchContext} {index : ℕ} {rule : RuleItem deps Net}
    (hkey : MatchContext.fromContextAddress deps.std ctx target = .ok key)
    (h : firstMatch rules key = some index) (hrule : rules[index]? = some rule) :
    scanRules rules ctx target = .ok rule := by
  simp only [scanRules, hkey, find?_of_firstMatch h hrule]

/-- A call is sound when it starts. -/
theorem RuleCall.Sound.enter (rules : List (RuleItem deps Net)) (ctx : Context)
    (target : Address) :
    RuleCall.Sound rules ⟨ctx, target, CallState.enter deps Net ctx target⟩ := by
  unfold CallState.enter
  cases hkey : MatchContext.fromContextAddress deps.std ctx target with
  | error e => simp [RuleCall.Sound, scanRules, hkey]
  | ok key => exact hkey

/-- **The step lemma.**  The next step of a sound call leaves a sound call and a
sound cache, and has less work to do. -/
theorem RuleCall.Sound.advance {call : RuleCall deps Net}
    (sound : call.Sound rules) (hcache : CacheSound rules cache)
    {state : CallState deps Net} {cache' : RuleCache}
    (h : call.state.advance rules cache = some (state, cache')) :
    RuleCall.Sound rules { call with state := state } ∧ CacheSound rules cache' ∧
      state.work rules < call.state.work rules := by
  obtain ⟨ctx, target, pc⟩ := call
  cases pc with
  | lookup key =>
      simp only [CallState.advance] at h
      cases hget : cache.get key with
      | none =>
          simp only [hget, Option.some.injEq, Prod.mk.injEq] at h
          obtain ⟨rfl, rfl⟩ := h
          refine ⟨⟨sound, ?_⟩, hcache, by simp [CallState.work]⟩
          intro j rule hj
          omega
      | some index =>
          have hfirst := hcache.get hget
          have hlt := firstMatch_lt hfirst
          simp only [hget, List.getElem?_eq_getElem hlt, Option.some.injEq,
            Prod.mk.injEq] at h
          obtain ⟨rfl, rfl⟩ := h
          refine ⟨?_, hcache, by simp [CallState.work]⟩
          exact (scanRules_of_firstMatch sound hfirst
            (List.getElem?_eq_getElem hlt)).symm
  | scanning key index =>
      obtain ⟨hkey, hbefore⟩ := sound
      simp only [CallState.advance] at h
      cases hrule : rules[index]? with
      | none =>
          simp only [hrule, Option.some.injEq, Prod.mk.injEq] at h
          obtain ⟨rfl, rfl⟩ := h
          refine ⟨?_, hcache, by simp [CallState.work]⟩
          simp only at hkey
          simp only [RuleCall.Sound, scanRules, hkey,
            find?_of_exhausted hbefore hrule]
      | some rule =>
          have hlt : index < rules.length :=
            (List.getElem?_eq_some_iff.mp hrule).1
          cases hmatch : rule.matcher.matchRule key with
          | true =>
              simp only [hrule, hmatch, if_true, Option.some.injEq,
                Prod.mk.injEq] at h
              obtain ⟨rfl, rfl⟩ := h
              exact ⟨⟨hkey, firstMatch_of_scan hbefore hrule hmatch⟩, hcache,
                by simp [CallState.work]⟩
          | false =>
              simp only [hrule, hmatch, Bool.false_eq_true, if_false,
                Option.some.injEq, Prod.mk.injEq] at h
              obtain ⟨rfl, rfl⟩ := h
              refine ⟨⟨hkey, hbefore.succ hrule hmatch⟩, hcache, ?_⟩
              simp only [CallState.work]
              omega
  | inserting key index =>
      obtain ⟨hkey, hfirst⟩ := sound
      have hlt := firstMatch_lt hfirst
      simp only [CallState.advance, List.getElem?_eq_getElem hlt,
        Option.some.injEq, Prod.mk.injEq] at h
      obtain ⟨rfl, rfl⟩ := h
      refine ⟨?_, hcache.insert hfirst, by simp [CallState.work]⟩
      exact (scanRules_of_firstMatch hkey hfirst
        (List.getElem?_eq_getElem hlt)).symm
  | returned result => simp [CallState.advance] at h
  | panicked => exact sound.elim

/-- The invariant after one call has moved. -/
theorem RuleState.Sound.update {s : RuleState deps Net} (sound : s.Sound rules)
    (hcache : CacheSound rules cache) {call : RuleCall deps Net}
    (hcall : call.Sound rules) (id : ℕ) :
    RuleState.Sound rules ⟨cache, Function.update s.calls id (some call)⟩ := by
  refine ⟨hcache, fun id' call' h => ?_⟩
  by_cases hid : id' = id
  · subst hid
    simp only [Function.update_self, Option.some.injEq] at h
    subst h
    exact hcall
  · simp only [Function.update_of_ne hid] at h
    exact sound.calls id' call' h

/-- Every event preserves the invariant. -/
theorem RuleState.Sound.step {s s' : RuleState deps Net} (sound : s.Sound rules)
    {e : RuleEvent} (h : s.step rules e = some s') : s'.Sound rules := by
  cases e with
  | call id ctx target =>
      simp only [RuleState.step] at h
      cases hcall : s.calls id with
      | some call => simp [hcall] at h
      | none =>
          simp only [hcall, Option.some.injEq] at h
          subst h
          exact sound.update sound.cache (RuleCall.Sound.enter rules ctx target) id
  | advance id =>
      simp only [RuleState.step] at h
      cases hcall : s.calls id with
      | none => simp [hcall] at h
      | some call =>
          cases hadv : call.state.advance rules s.cache with
          | none => simp [hcall, hadv] at h
          | some next =>
              simp only [hcall, hadv, Option.some.injEq] at h
              subst h
              obtain ⟨hcall', hcache', -⟩ :=
                (sound.calls id call hcall).advance sound.cache hadv
              exact sound.update hcache' hcall' id
  | evict keep =>
      simp only [RuleState.step, Option.some.injEq] at h
      subst h
      exact ⟨sound.cache.filter keep, sound.calls⟩

theorem ruleSystem_sound {s : RuleState deps Net}
    (reach : (ruleSystem rules).Reachable s) : s.Sound rules := by
  refine System.Reachable.invariant ?_ (fun s e s' sound h => ?_) reach
  · exact ⟨by simp [ruleSystem, CacheSound], by simp [ruleSystem]⟩
  · exact sound.step h

/-- A call that is not over always has a next step. -/
theorem CallState.advance_isSome {state : CallState deps Net}
    (hpos : 0 < state.work rules) (cache : RuleCache) :
    (state.advance rules cache).isSome := by
  cases state with
  | lookup key =>
      simp only [CallState.advance]
      cases cache.get key with
      | none => rfl
      | some index => cases hr : rules[index]? <;> simp [hr]
  | scanning key index =>
      simp only [CallState.advance]
      cases rules[index]? with
      | none => rfl
      | some rule => cases hm : rule.matcher.matchRule key <;> simp [hm]
  | inserting key index =>
      simp only [CallState.advance]
      cases rules[index]? <;> rfl
  | returned | panicked => simp [CallState.work] at hpos

end Invariant

/-- **Caching does not change routing.**  In every state that concurrent calls
can reach, over every rule list and however entries are evicted, a call of
`get_rule` that has returned has returned what the scan without a cache returns
for its arguments; no call panics; and a call that has not returned has a next
step, which brings it closer to returning. -/
theorem getRule_eq_scanRules (rules : List (RuleItem deps Net))
    (s : RuleState deps Net) (reach : (ruleSystem rules).Reachable s) (id : ℕ)
    (call : RuleCall deps Net) (hcall : s.calls id = some call) :
    (∀ result, call.state = .returned result →
      result = scanRules rules call.ctx call.target) ∧
    call.state ≠ .panicked ∧
    ((∀ result, call.state ≠ .returned result) →
      ∃ state cache, call.state.advance rules s.cache = some (state, cache) ∧
        state.work rules < call.state.work rules) := by
  have sound := ruleSystem_sound reach
  have hsound := sound.calls id call hcall
  refine ⟨fun result h => ?_, fun h => ?_, fun hrun => ?_⟩
  · simpa only [RuleCall.Sound, h] using hsound
  · simp only [RuleCall.Sound, h] at hsound
  · have hpos : 0 < call.state.work rules := by
      cases hpc : call.state with
      | returned result => exact absurd hpc (hrun result)
      | panicked => simp only [RuleCall.Sound, hpc] at hsound
      | lookup | scanning | inserting => simp [CallState.work]
    obtain ⟨⟨state, cache⟩, hadv⟩ :=
      Option.isSome_iff_exists.mp (CallState.advance_isSome hpos s.cache)
    exact ⟨state, cache, hadv, (hsound.advance sound.cache hadv).2.2⟩

/-- A rule for a domain, and a rule for everything else. -/
def sampleRules :
    List (RuleItem ⟨⟨fun _ => none, fun _ => none⟩, Unit, fun _ _ => false,
      fun _ => .failed⟩ String) :=
  [⟨"proxy", "proxy", .domain ⟨.match, ["+.example.com"]⟩⟩, ⟨"local", "local", .any⟩]

/-- Two calls for one domain: the second finds the entry of the first. -/
theorem getRule_eq_scanRules_cached :
    ∃ s call, (ruleSystem sampleRules).Reachable s ∧ s.cache ≠ [] ∧
      s.calls 1 = some call ∧
      scanRules sampleRules call.ctx call.target = .ok sampleRules[0] ∧
      call.state = .returned (scanRules sampleRules call.ctx call.target) := by
  have reach := System.reachable_of_run (ruleSystem sampleRules)
    [.call 0 .new (.domain "www.example.com" 443), .advance 0, .advance 0,
      .advance 0, .call 1 .new (.domain "www.example.com" 443), .advance 1] rfl
  refine ⟨_, _, reach, by simp [RuleCache.insert], rfl, rfl, ?_⟩
  exact congrArg _ ((getRule_eq_scanRules sampleRules _ reach 1 _ rfl).1 _ rfl)

end RabbitDigger
