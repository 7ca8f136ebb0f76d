import Mathlib.Logic.Function.Basic
import RabbitDigger.Foundation.Transition

/-!
# The cache with a time-to-live

`rd-std/src/util/lru_cache.rs` puts a timer beside a `lru_time_cache::LruCache`.  The cache itself
drops entries that have expired **only when it is accessed**, so without accesses it would keep the
sockets and tasks in its entries.  `poll_clear_expired` is called from the `poll` of the owner: when
the timer has fired, it sets the timer anew and makes the cache drop what has expired.

The crate is a parameter, `TimeCache`, with the laws that are asked of it.  `lru_cache_sound` is
about the timer, for every order of accesses and polls, with a clock beside them: a poll returns,
and if the owner is polled not later than `late` after the timer fires, then an entry **goes within
twice the time-to-live** of its last use.
-/

namespace RabbitDigger.Util

open Transition

/-- `lru_time_cache::LruCache` with this time-to-live, as far as it is used here.  Every access is
made at a time. -/
structure TimeCache (κ ω : Type) (ttl : ℕ) where
  Cache : Type
  /-- The value under a key and the time of its last use. -/
  entry : Cache → κ → Option (ω × ℕ)
  new : Cache
  get : ℕ → Cache → κ → Cache × Option ω
  insert : ℕ → Cache → κ → ω → Cache
  remove : Cache → κ → Cache
  iter : ℕ → Cache → Cache
  new_entry : ∀ k, entry new k = none
  /-- What is left after `iter` has not expired. -/
  iter_entry : ∀ {now cache k e}, entry (iter now cache) k = some e →
    entry cache k = some e ∧ now ≤ e.2 + ttl
  /-- `get` is a use of the key, and drops others at most. -/
  get_entry : ∀ {now cache key k e}, entry (get now cache key).1 k = some e →
    entry cache k = some e ∨ e.2 = now ∧ ∃ used, entry cache k = some (e.1, used)
  get_some : ∀ {now cache key v}, (get now cache key).2 = some v →
    ∃ used, entry cache key = some (v, used)
  get_none : ∀ {now cache key}, (get now cache key).2 = none →
    entry (get now cache key).1 key = none
  /-- `insert` replaces the entry of the key, and drops others at most. -/
  insert_entry : ∀ {now cache key v k e}, entry (insert now cache key v) k = some e →
    entry cache k = some e ∨ k = key ∧ e = (v, now)
  get_insert : ∀ now cache key v, (get now (insert now cache key v) key).2 = some v
  remove_entry : ∀ {cache key k e}, entry (remove cache key) k = some e →
    k ≠ key ∧ entry cache k = some e

variable {κ ω : Type} {ttl : ℕ}

/-- `LruCache`, whose timer fires at `sleep`. -/
structure LruCache (crate : TimeCache κ ω ttl) where
  cache : crate.Cache
  sleep : ℕ

namespace LruCache

variable {crate : TimeCache κ ω ttl}

/-- `with_expiry_duration_and_capacity`. -/
def new (now : ℕ) : LruCache crate := ⟨crate.new, now + ttl⟩

/-- `poll_clear_expired`, for a number of passes of its loop; `fired` says in which of them the
timer has fired, if its time has come.  `none` if the loop is still running. -/
def pollClearExpired (now : ℕ) (fired : ℕ → Bool) : ℕ → LruCache crate → Option (LruCache crate)
  | 0, _ => none
  | passes + 1, lru =>
      if fired passes ∧ lru.sleep ≤ now then
        pollClearExpired now fired passes ⟨crate.iter now lru.cache, now + ttl⟩
      else some lru

/-- **The loop ends in its second pass**: the timer that it has just set cannot have fired. -/
theorem pollClearExpired_eq (httl : 0 < ttl) (lru : LruCache crate) (now passes : ℕ)
    (fired : ℕ → Bool) :
    pollClearExpired now fired (passes + 2) lru
      = some (if fired (passes + 1) ∧ lru.sleep ≤ now then ⟨crate.iter now lru.cache, now + ttl⟩
        else lru) := by
  unfold pollClearExpired
  split
  · unfold pollClearExpired
    have hset : ¬ (fired passes = true ∧ now + ttl ≤ now) := by
      rintro ⟨-, h⟩
      omega
    exact if_neg hset
  · rfl

end LruCache

/-! ## Runs -/

/-- An access to the cache. -/
inductive Access (κ ω : Type) where
  | get (key : κ)
  | insert (key : κ) (value : ω)
  | remove (key : κ)

/-- A cache and a clock. -/
structure CacheState (crate : TimeCache κ ω ttl) where
  now : ℕ
  lru : LruCache crate

/-- What can happen. -/
inductive CacheEvent (κ ω : Type) where
  | tick
  | access (access : Access κ ω)
  /-- The owner is polled, and the timer has fired if its time has come, or not. -/
  | poll (fired : ℕ → Bool)

section Run

variable (crate : TimeCache κ ω ttl)

/-- The cache after an access. -/
def TimeCache.after (now : ℕ) (cache : crate.Cache) : Access κ ω → crate.Cache
  | .get key => (crate.get now cache key).1
  | .insert key value => crate.insert now cache key value
  | .remove key => crate.remove cache key

/-- One step. -/
def CacheState.step (st : CacheState crate) : CacheEvent κ ω → Option (CacheState crate)
  | .tick => some { st with now := st.now + 1 }
  | .access access =>
      some { st with lru := { st.lru with cache := crate.after st.now st.lru.cache access } }
  | .poll fired =>
      (LruCache.pollClearExpired st.now fired 2 st.lru).map fun lru => { st with lru := lru }

/-- A new cache. -/
def cacheSystem : System (CacheState crate) (CacheEvent κ ω) where
  init := ⟨0, .new 0⟩
  step := CacheState.step crate

variable {crate}

/-- The owner is polled not later than so much after the timer fires. -/
def CacheState.prompt (late : ℕ) (st : CacheState crate) : CacheEvent κ ω → Bool
  | .tick => st.now < st.lru.sleep + late
  | _ => true

/-- An entry after an access has the time of one before it, or of the access. -/
theorem TimeCache.used_after {now : ℕ} {cache : crate.Cache} {access : Access κ ω} {k : κ}
    {e : ω × ℕ} (h : crate.entry (crate.after now cache access) k = some e) :
    crate.entry cache k = some e ∨ e.2 = now := by
  cases access with
  | get key => exact (crate.get_entry h).imp_right And.left
  | insert key value => exact (crate.insert_entry h).imp_right fun hnew => congrArg Prod.snd hnew.2
  | remove key => exact .inl (crate.remove_entry h).2

/-- **The timer and the entries.**  An entry has been used since shortly before the timer was
set. -/
structure Timed (late : ℕ) (st : CacheState crate) : Prop where
  timer : st.now ≤ st.lru.sleep + late
  set : st.lru.sleep ≤ st.now + ttl
  used : ∀ k e, crate.entry st.lru.cache k = some e → st.lru.sleep ≤ e.2 + 2 * ttl

variable {late : ℕ} {st st' : CacheState crate}

/-- What one step preserves. -/
theorem Timed.step (h : Timed late st) (httl : 0 < ttl) {event : CacheEvent κ ω}
    (hprompt : st.prompt late event = true) (hstep : st.step crate event = some st') :
    Timed late st' := by
  have hset := h.set
  cases event with
  | tick =>
      cases hstep
      refine ⟨of_decide_eq_true hprompt, ?_, h.used⟩
      show st.lru.sleep ≤ st.now + 1 + ttl
      omega
  | access access =>
      cases hstep
      refine ⟨h.timer, h.set, fun k e hentry => ?_⟩
      show st.lru.sleep ≤ e.2 + 2 * ttl
      rcases TimeCache.used_after hentry with hold | hused
      · exact h.used k e hold
      · omega
  | poll fired =>
      simp only [CacheState.step, LruCache.pollClearExpired_eq httl, Option.map_some,
        Option.some.injEq] at hstep
      subst hstep
      split
      · -- what is left has not expired, and the timer is set anew
        refine ⟨?_, Nat.le_refl _, fun k e hentry => ?_⟩
        · show st.now ≤ st.now + ttl + late
          omega
        · have hlive := (crate.iter_entry hentry).2
          show st.now + ttl ≤ e.2 + 2 * ttl
          omega
      · exact h

/-- **Entries go although nobody uses the cache**, for every order of accesses and polls in which
the owner is polled not later than `late` after the timer fires; and every poll returns. -/
theorem lru_cache_sound (crate : TimeCache κ ω ttl) (httl : 0 < ttl) (late : ℕ)
    (st : CacheState crate)
    (reach : (cacheSystem crate).Reach (fun st event => st.prompt late event = true) st) :
    (∀ k value used, crate.entry st.lru.cache k = some (value, used) →
        st.now ≤ used + 2 * ttl + late) ∧
      ∀ fired, (LruCache.pollClearExpired st.now fired 2 st.lru).isSome := by
  have timed : Timed late st := by
    refine reach.invariant (P := Timed late) ⟨Nat.zero_le _, Nat.le_refl _, fun k e h => ?_⟩
      fun st event st' h hprompt hstep => h.step httl hprompt hstep
    cases (crate.new_entry k).symm.trans h
  refine ⟨fun k value used hentry => ?_, fun fired => ?_⟩
  · have htimer := timed.timer
    have hused : st.lru.sleep ≤ used + 2 * ttl := timed.used k (value, used) hentry
    omega
  · rw [LruCache.pollClearExpired_eq httl]
    rfl

end Run

/-! ## A crate that meets the laws -/

/-- What has not expired. -/
def live (ttl now : ℕ) (cache : κ → Option (ω × ℕ)) (k : κ) : Option (ω × ℕ) :=
  (cache k).filter fun e => now ≤ e.2 + ttl

theorem live_eq_some {now : ℕ} {cache : κ → Option (ω × ℕ)} {k : κ} {e : ω × ℕ} :
    live ttl now cache k = some e ↔ cache k = some e ∧ now ≤ e.2 + ttl := by
  simp [live, Option.filter_eq_some_iff]

/-- What is found in a table after it was written. -/
theorem update_eq_some [DecidableEq κ] {cache : κ → Option (ω × ℕ)} {key k : κ}
    {new : Option (ω × ℕ)} {e : ω × ℕ} (h : Function.update cache key new k = some e) :
    k ≠ key ∧ cache k = some e ∨ k = key ∧ new = some e := by
  by_cases hk : k = key
  · subst hk
    rw [Function.update_self] at h
    exact .inr ⟨rfl, h⟩
  · rw [Function.update_of_ne hk] at h
    exact .inl ⟨hk, h⟩

/-- A cache that drops nothing but what has expired. -/
def TimeCache.unbounded (κ ω : Type) [DecidableEq κ] (ttl : ℕ) : TimeCache κ ω ttl where
  Cache := κ → Option (ω × ℕ)
  entry cache := cache
  new _ := none
  get now cache key :=
    match live ttl now cache key with
    | none => (live ttl now cache, none)
    | some e => (Function.update (live ttl now cache) key (some (e.1, now)), some e.1)
  insert now cache key v := Function.update (live ttl now cache) key (some (v, now))
  remove cache key := Function.update cache key none
  iter := live ttl
  new_entry _ := rfl
  iter_entry h := live_eq_some.mp h
  get_entry := by
    intro now cache key k e h
    split at h
    · exact .inl (live_eq_some.mp h).1
    · rename_i old hold
      rcases update_eq_some h with ⟨-, hk⟩ | ⟨rfl, hnew⟩
      · exact .inl (live_eq_some.mp hk).1
      · cases hnew
        exact .inr ⟨rfl, old.2, (live_eq_some.mp hold).1⟩
  get_some := by
    intro now cache key v h
    split at h
    · cases h
    · rename_i old hold
      cases h
      exact ⟨old.2, (live_eq_some.mp hold).1⟩
  get_none := by
    intro now cache key h
    cases hlive : live ttl now cache key with
    | none =>
        simp only [hlive]
    | some old =>
        simp only [hlive] at h
        cases h
  insert_entry := by
    intro now cache key v k e h
    rcases update_eq_some h with ⟨-, hk⟩ | ⟨rfl, hnew⟩
    · exact .inl (live_eq_some.mp hk).1
    · exact .inr ⟨rfl, (Option.some.inj hnew).symm⟩
  get_insert now cache key v := by
    have hlive : live ttl now (Function.update (live ttl now cache) key (some (v, now))) key
        = some (v, now) :=
      live_eq_some.mpr ⟨Function.update_self _ _ _, Nat.le_add_right _ _⟩
    simp only [hlive]
  remove_entry h := by
    rcases update_eq_some h with hother | ⟨-, hnew⟩
    · exact hother
    · cases hnew

/-- One of two entries is used again, and the timer fires when the other one has expired. -/
def oneExpires : List (CacheEvent ℕ ℕ) :=
  [.access (.insert 1 10), .access (.insert 2 20), .tick, .tick, .tick, .access (.get 2), .tick,
    .poll fun _ => true]

theorem lru_cache_sound_oneExpires : ∃ st,
    (cacheSystem (TimeCache.unbounded ℕ ℕ 3)).Reach (fun st event => st.prompt 1 event = true) st ∧
      (∀ k value used, (TimeCache.unbounded ℕ ℕ 3).entry st.lru.cache k = some (value, used) →
        st.now ≤ used + 2 * 3 + 1) ∧
      (TimeCache.unbounded ℕ ℕ 3).entry st.lru.cache 1 = none ∧
      (TimeCache.unbounded ℕ ℕ 3).entry st.lru.cache 2 = some (20, 3) := by
  have hrun : ((cacheSystem (TimeCache.unbounded ℕ ℕ 3)).replay (CacheState.prompt 1)
      oneExpires).map (fun st => ((TimeCache.unbounded ℕ ℕ 3).entry st.lru.cache 1,
        (TimeCache.unbounded ℕ ℕ 3).entry st.lru.cache 2)) = some (none, some (20, 3)) := by
    decide
  obtain ⟨st, hst, hview⟩ := Option.map_eq_some_iff.mp hrun
  obtain ⟨hone, htwo⟩ := Prod.mk.inj hview
  have reach := System.reach_of_replay _ _ _ hst
  exact ⟨st, reach, (lru_cache_sound _ (by decide) 1 st reach).1, hone, htwo⟩

end RabbitDigger.Util
