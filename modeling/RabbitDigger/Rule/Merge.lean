import RabbitDigger.Interface.ConfigVisit
import RabbitDigger.Rule.RuleNet

/-!
# Merging rule items

`RuleItem::merge` (`rd-std/src/rule/config.rs`) puts the entries of one rule item into another
that has the same target, so that a list of rules gets shorter.  A merged item should match
where either of the two did, and then a list in which two neighbours are merged leads every
connection to the same target.

Entries have a meaning of their own in a list of CIDR blocks, but not in a list of domains: there
`DomainMatcher::method` says how each of them is compared.  **`merge` does not look at the
method** of the other item and keeps its own, so a list of suffixes may become a list of keywords.
`merge_lawful_iff` says that this is all: merging is right if and only if the other item's
domains mean the same under the first item's method (`Compatible`), as far as the first item
does not match anyway; and if it is right for the matchers, then it is right for `get_rule`.
Under one method they always do; for keywords and suffixes it is a matter of the entries
(`sameMeaning_keyword_suffix_iff`, `sameMeaning_suffix_keyword_iff`).

What makes the second step go through is that items are merged only if the representations of
their targets are equal, and that resolving a `NetRef` gives one net for one representation.
-/

namespace RabbitDigger

open Transition

/-! ## The configuration of a rule -/

/-- `Extend::extend` of `SingleOrVec`. -/
def SingleOrVec.extend {α : Type} (this : SingleOrVec α) (iter : List α) : SingleOrVec α :=
  match this with
  | .single i => .vec (i :: iter)
  | .vec v => .vec (v ++ iter)

@[simp] theorem SingleOrVec.iter_extend {α : Type} (this : SingleOrVec α) (iter : List α) :
    (this.extend iter).iter = this.iter ++ iter := by
  cases this <;> rfl

variable {deps : MatcherDeps} {ν : Type}

/-- `config::Matcher::merge`: the matcher it leaves, and what it returns. -/
def Matcher.merge (self other : Matcher deps) : Matcher deps × Bool :=
  match self, other with
  | .domain selfDomain, .domain otherDomain =>
      (.domain { selfDomain with domain := selfDomain.domain ++ otherDomain.domain }, true)
  | .ipCidr selfIpcidr, .ipCidr otherIpcidr =>
      (.ipCidr (selfIpcidr.extend otherIpcidr.iter), true)
  | .srcIpCidr selfSrcipcidr, .srcIpCidr otherSrcipcidr =>
      (.srcIpCidr (selfSrcipcidr.extend otherSrcipcidr.iter), true)
  | .any, .any => (.any, true)
  | .geoIp country, .geoIp _ => (.geoIp country, false)
  | self, _ => (self, false)

namespace RuleConfig

/-- `config::RuleItem`. -/
structure RuleItem (deps : MatcherDeps) (ν : Type) where
  target : ConfigVisit.NetRef ν
  matcher : Matcher deps

/-- What `serde_json` does with values. -/
structure Json where
  /-- `PartialEq::eq`. -/
  eq : Value → Value → Bool
  /-- `Value::to_string`. -/
  toString : Value → String

/-- `RuleItem::merge`: the item it leaves, and what it returns. -/
def RuleItem.merge (json : Json) (self other : RuleItem deps ν) : RuleItem deps ν × Bool :=
  if json.eq self.target.represent other.target.represent then
    let (matcher, merged) := self.matcher.merge other.matcher
    ({ self with matcher }, merged)
  else
    (self, false)

/-- An item of a `Rule`, made of a configured one; `none` is the panic of `value_cloned`. -/
def RuleItem.build (json : Json) (item : RuleItem deps ν) :
    Option (RabbitDigger.RuleItem deps ν) :=
  item.target.value.map fun net => ⟨json.toString item.target.represent, net, item.matcher⟩

/-- `Rule::new`. -/
def ruleNew (json : Json) (rule : List (RuleItem deps ν)) :
    Option (List (RabbitDigger.RuleItem deps ν)) :=
  rule.mapM (RuleItem.build json)

/-! ## Matchers -/

/-- **A test of two lists of domains is the tests of either**, under one method. -/
theorem test_append (self : DomainMatcher) (domains : List String) (name : String) :
    ({ self with domain := self.domain ++ domains } : DomainMatcher).test name
      = (self.test name || ({ self with domain := domains } : DomainMatcher).test name) := by
  obtain ⟨method, own⟩ := self
  cases method <;> simp only [DomainMatcher.test, List.any_append]

theorem testCidr_extend (xs ys : SingleOrVec deps.Cidr) (ip : IpAddr) :
    Matcher.testCidr (xs.extend ys.iter) ip
      = (Matcher.testCidr xs ip || Matcher.testCidr ys ip) := by
  simp only [Matcher.testCidr, SingleOrVec.iter_extend, List.any_append]

/-- The domains of `other` mean under the method of `self` what they mean under its own, on
every name that `self` does not match anyway. -/
def SameMeaning (self other : DomainMatcher) : Prop :=
  ∀ name, self.test name = false →
    ({ self with domain := other.domain } : DomainMatcher).test name = other.test name

theorem SameMeaning.of_method_eq {self other : DomainMatcher}
    (h : self.method = other.method) : SameMeaning self other := by
  intro name _
  cases other
  cases h
  rfl

section Entries

variable {own domains : List String} {c : Char} (hfresh : ∀ d ∈ own ++ domains, c ∉ d.toList)

/-- A suffix of a name that ends with a character of its own. -/
theorem eq_empty_of_suffix {d : String} {l : List Char} (hc : c ∉ d.toList)
    (h : d.toList <:+ l ++ [c]) : d = "" := by
  rcases List.suffix_concat_iff.mp h with hempty | ⟨t, heq, -⟩
  · exact String.toList_eq_nil_iff.mp hempty
  · rw [heq] at hc
    simp at hc

include hfresh

/-- **Suffixes among keywords**: each of them contains a keyword, or one is empty. -/
theorem sameMeaning_keyword_suffix_iff : SameMeaning ⟨.keyword, own⟩ ⟨.suffix, domains⟩ ↔
    "" ∈ domains ∨ ∀ d ∈ domains, (⟨.keyword, own⟩ : DomainMatcher).test d = true := by
  refine (forall₂_congr fun name _ => Bool.eq_iff_iff).trans ?_
  simp only [DomainMatcher.test, List.any_eq_true, List.any_eq_false, decide_eq_true_eq]
  constructor
  · intro h
    by_contra hnot
    push Not at hnot
    obtain ⟨hempty, d, hd, hown⟩ := hnot
    -- the name `d` with a character behind it
    have hname := h (String.ofList (d.toList ++ [c]))
    simp only [String.toList_ofList] at hname
    have hself : ∀ k ∈ own, ¬ k.toList <:+: d.toList ++ [c] := by
      intro k hk hinfix
      rcases List.infix_concat_iff.mp hinfix with hsuffix | hinfix
      · cases eq_empty_of_suffix (hfresh k (List.mem_append_left _ hk)) hsuffix
        exact hown _ hk List.nil_infix
      · exact hown k hk hinfix
    obtain ⟨d', hd', hsuffix⟩ := (hname hself).mp ⟨d, hd, List.infix_append' [] _ _⟩
    exact hempty (eq_empty_of_suffix (hfresh d' (List.mem_append_right _ hd')) hsuffix ▸ hd')
  · rintro (hempty | hall) name hname
    · exact ⟨fun _ => ⟨"", hempty, List.nil_suffix⟩, fun _ => ⟨"", hempty, List.nil_infix⟩⟩
    · constructor
      · rintro ⟨d, hd, hinfix⟩
        obtain ⟨k, hk, hkd⟩ := hall d hd
        exact absurd (hkd.trans hinfix) (hname k hk)
      · rintro ⟨d, hd, hsuffix⟩
        exact ⟨d, hd, hsuffix.isInfix⟩

/-- **Keywords among suffixes**: there are none, or an entry is empty. -/
theorem sameMeaning_suffix_keyword_iff : SameMeaning ⟨.suffix, own⟩ ⟨.keyword, domains⟩ ↔
    domains = [] ∨ "" ∈ own ++ domains := by
  refine (forall₂_congr fun name _ => Bool.eq_iff_iff).trans ?_
  simp only [DomainMatcher.test, List.any_eq_true, List.any_eq_false, decide_eq_true_eq]
  constructor
  · intro h
    by_contra hnot
    push Not at hnot
    obtain ⟨hsome, hempty⟩ := hnot
    obtain ⟨d, hd⟩ := List.exists_mem_of_ne_nil _ hsome
    have hnone : ∀ d' ∈ own ++ domains, ¬ d'.toList <:+ d.toList ++ [c] := fun d' hd' hsuffix =>
      hempty (eq_empty_of_suffix (hfresh d' hd') hsuffix ▸ hd')
    have hname := h (String.ofList (d.toList ++ [c]))
    simp only [String.toList_ofList] at hname
    obtain ⟨d', hd', hsuffix⟩ := (hname fun s hs => hnone s (List.mem_append_left _ hs)).mpr
      ⟨d, hd, List.infix_append' [] _ _⟩
    exact hnone d' (List.mem_append_right _ hd') hsuffix
  · rintro (rfl | hempty) name hname
    · simp
    · rcases List.mem_append.mp hempty with hempty | hempty
      · exact absurd List.nil_suffix (hname "" hempty)
      · exact ⟨fun _ => ⟨"", hempty, List.nil_infix⟩, fun _ => ⟨"", hempty, List.nil_suffix⟩⟩

end Entries

/-- Two domain matchers mean the same to each other, if both are domain matchers. -/
def MethodsAgree (self other : Matcher deps) : Prop :=
  ∀ selfDomain otherDomain, self = .domain selfDomain → other = .domain otherDomain →
    SameMeaning selfDomain otherDomain

/-- A domain matcher sees the name of the context, if it has one. -/
theorem matchRule_domain (m : DomainMatcher) (mc : MatchContext) :
    (Matcher.domain m : Matcher deps).matchRule mc
      = (mc.getDomain.map Prod.fst).any m.test := by
  simp only [Matcher.matchRule]
  cases mc.getDomain <;> rfl

/-- A context with a given name to look at. -/
def contextOf (name : String) : MatchContext := ⟨.domain name 0, none, none, none⟩

/-- **For domains, merging is right exactly if the methods agree.** -/
theorem merge_domain_iff (self other : DomainMatcher) :
    (∀ mc, (Matcher.merge (.domain self : Matcher deps) (.domain other)).1.matchRule mc
        = ((Matcher.domain self : Matcher deps).matchRule mc
          || (Matcher.domain other : Matcher deps).matchRule mc))
      ↔ SameMeaning self other := by
  simp only [Matcher.merge, matchRule_domain]
  constructor
  · intro h name hname
    have hmerged := h (contextOf name)
    simp only [contextOf, MatchContext.getDomain, Option.map_some, Option.any_some] at hmerged
    rw [test_append, hname, Bool.false_or, Bool.false_or] at hmerged
    exact hmerged
  · intro h mc
    cases mc.getDomain with
    | none => rfl
    | some domain =>
        simp only [Option.map_some, Option.any_some, test_append]
        cases hname : self.test domain.1 with
        | true => rw [Bool.true_or, Bool.true_or]
        | false => rw [Bool.false_or, Bool.false_or, h domain.1 hname]

/-- What merging two matchers should do, if it does anything. -/
def Unites (self other : Matcher deps) : Prop :=
  (self.merge other).2 = true → ∀ mc,
    (self.merge other).1.matchRule mc = (self.matchRule mc || other.matchRule mc)

/-- **Only domain matchers can be merged wrongly.** -/
theorem unites_iff (self other : Matcher deps) : Unites self other ↔ MethodsAgree self other := by
  unfold Unites MethodsAgree
  cases self with
  | domain selfDomain =>
      cases other with
      | domain otherDomain =>
          refine (forall_prop_of_true rfl).trans ((merge_domain_iff _ _).trans ?_)
          constructor
          · rintro h _ _ ⟨⟩ ⟨⟩
            exact h
          · intro h
            exact h _ _ rfl rfl
      | _ => exact iff_of_true (fun h => by cases h) (fun _ _ _ h => by cases h)
  | ipCidr xs =>
      refine iff_of_true (fun h mc => ?_) (fun _ _ h => by cases h)
      cases other with
      | ipCidr ys =>
          simp only [Matcher.merge, Matcher.matchRule]
          cases mc.getSocketAddr deps.std with
          | none => rfl
          | some addr => exact testCidr_extend xs ys addr.ip
      | _ => cases h
  | srcIpCidr xs =>
      refine iff_of_true (fun h mc => ?_) (fun _ _ h => by cases h)
      cases other with
      | srcIpCidr ys =>
          simp only [Matcher.merge, Matcher.matchRule]
          cases mc.srcIpAddr with
          | none => rfl
          | some addr => exact testCidr_extend xs ys addr
      | _ => cases h
  | geoIp country =>
      refine iff_of_true (fun h => ?_) (fun _ _ h => by cases h)
      cases other <;> cases h
  | any =>
      refine iff_of_true (fun h mc => ?_) (fun _ _ h => by cases h)
      cases other with
      | any => rfl
      | _ => cases h

/-- A merge that returns `false` has changed nothing. -/
theorem merge_of_false {self other : Matcher deps} (h : (self.merge other).2 = false) :
    (self.merge other).1 = self := by
  cases self <;> cases other <;> first | rfl | cases h

/-! ## Items -/

section Items

variable {json : Json} {a b : RuleItem deps ν}

theorem merge_target : (a.merge json b).1.target = a.target := by
  unfold RuleItem.merge
  split <;> rfl

theorem merge_matcher (h : json.eq a.target.represent b.target.represent = true) :
    (a.merge json b).1.matcher = (a.matcher.merge b.matcher).1 ∧
      (a.merge json b).2 = (a.matcher.merge b.matcher).2 := by
  unfold RuleItem.merge
  rw [if_pos h]
  exact ⟨rfl, rfl⟩

theorem merge_of_ne (h : ¬ json.eq a.target.represent b.target.represent = true) :
    a.merge json b = (a, false) := if_neg h

/-- Items are merged only for one target. -/
theorem represent_of_merged (h : (a.merge json b).2 = true) :
    json.eq a.target.represent b.target.represent = true := by
  by_contra hne
  rw [merge_of_ne hne] at h
  cases h

/-- An item that is not merged stays as it is. -/
theorem merge_unchanged (h : (a.merge json b).2 = false) : (a.merge json b).1 = a := by
  by_cases hrepresent : json.eq a.target.represent b.target.represent = true
  · obtain ⟨-, hmerged⟩ := merge_matcher hrepresent
    unfold RuleItem.merge
    rw [if_pos hrepresent]
    show ({ a with matcher := (a.matcher.merge b.matcher).1 } : RuleItem deps ν) = a
    rw [merge_of_false (hmerged.symm.trans h)]
  · rw [merge_of_ne hrepresent]

end Items

/-! ## Lists of rules -/

/-- The value of the target is what `getNet` has for its representation: how `resolve_net` leaves
a `NetRef`. -/
def ResolvedBy (getNet : Value → ν) (item : RuleItem deps ν) : Prop :=
  item.target.value = some (getNet item.target.represent)

/-- Some call of `get_rule`, in some run with other calls, returns a result. -/
def GetRuleReturns (rules : List (RabbitDigger.RuleItem deps ν)) (ctx : Context)
    (target : Address) (result : Except Error (RabbitDigger.RuleItem deps ν)) : Prop :=
  ∃ s id call, (ruleSystem rules).Reachable s ∧ s.calls id = some call ∧
    call.ctx = ctx ∧ call.target = target ∧ call.state = .returned result

/-- **Merging two neighbours**: whichever list they stand in and however its targets are
resolved, both lists make a `Rule`, and `get_rule` chooses the same target on either. -/
def SameChoice (json : Json) (a b merged : RuleItem deps ν) : Prop :=
  ∀ getNet : Value → ν, (∀ v w, json.eq v w = true → getNet v = getNet w) →
    ∀ pre post, (∀ item ∈ pre ++ a :: b :: post, ResolvedBy getNet item) →
      ∃ rules rules', ruleNew json (pre ++ a :: b :: post) = some rules ∧
        ruleNew json (pre ++ merged :: post) = some rules' ∧
        ∀ ctx target result result', GetRuleReturns rules ctx target result →
          GetRuleReturns rules' ctx target result' →
          result.map RabbitDigger.RuleItem.target = result'.map RabbitDigger.RuleItem.target

/-- **What `RuleItem::merge` is for.** -/
structure Lawful (json : Json) (a b : RuleItem deps ν) : Prop where
  /-- An item that is not merged stays as it is. -/
  unchanged : (a.merge json b).2 = false → (a.merge json b).1 = a
  target : (a.merge json b).1.target = a.target
  /-- A merged item matches where either did. -/
  unites : (a.merge json b).2 = true → ∀ mc, (a.merge json b).1.matcher.matchRule mc
    = (a.matcher.matchRule mc || b.matcher.matchRule mc)
  choice : (a.merge json b).2 = true → SameChoice json a b (a.merge json b).1

/-- The two items have different targets, or their methods agree. -/
def Compatible (json : Json) (a b : RuleItem deps ν) : Prop :=
  json.eq a.target.represent b.target.represent = true → MethodsAgree a.matcher b.matcher

section Choice

variable {json : Json}

/-- A resolved item, as `Rule::new` keeps it. -/
def RuleItem.built (json : Json) (getNet : Value → ν) (item : RuleItem deps ν) :
    RabbitDigger.RuleItem deps ν :=
  ⟨json.toString item.target.represent, getNet item.target.represent, item.matcher⟩

theorem ruleNew_of_resolved {getNet : Value → ν} {items : List (RuleItem deps ν)}
    (h : ∀ item ∈ items, ResolvedBy getNet item) :
    ruleNew json items = some (items.map (RuleItem.built json getNet)) := by
  unfold ruleNew
  induction items with
  | nil => rfl
  | cons item rest ih =>
      have hitem : item.build json = some (item.built json getNet) := by
        unfold RuleItem.build
        rw [h item List.mem_cons_self]
        rfl
      rw [List.mapM_cons, hitem, ih fun other hother => h other (List.mem_cons_of_mem _ hother)]
      rfl

/-- A result of `get_rule` is the one of the scan. -/
theorem GetRuleReturns.eq_scanRules {rules : List (RabbitDigger.RuleItem deps ν)}
    {ctx : Context} {target : Address} {result : Except Error (RabbitDigger.RuleItem deps ν)}
    (h : GetRuleReturns rules ctx target result) : result = scanRules rules ctx target := by
  obtain ⟨s, id, call, hreach, hcall, rfl, rfl, hstate⟩ := h
  have hsound := (ruleSystem_sound hreach).calls id call hcall
  simpa only [RuleCall.Sound, hstate] using hsound

/-- The first match in a list and in one where two neighbours are merged. -/
theorem find?_merged {α β : Type} {p : α → Bool} {f : α → β} {x y m : α}
    (hm : p m = (p x || p y)) (hx : f m = f x) (hy : f m = f y) (pre post : List α) :
    ((pre ++ x :: y :: post).find? p).map f = ((pre ++ m :: post).find? p).map f := by
  rw [List.find?_append, List.find?_append]
  cases pre.find? p with
  | some _ => rfl
  | none =>
      rw [Option.none_or, Option.none_or, List.find?_cons, List.find?_cons, List.find?_cons, hm]
      cases p x with
      | true => exact congrArg some hx.symm
      | false =>
          cases p y with
          | true => exact congrArg some hy.symm
          | false => rfl

/-- The target a scan finds. -/
theorem scanRules_target (rules : List (RabbitDigger.RuleItem deps ν)) (ctx : Context)
    (target : Address) {key : MatchContext}
    (hkey : MatchContext.fromContextAddress deps.std ctx target = .ok key) :
    (scanRules rules ctx target).map RabbitDigger.RuleItem.target
      = (((rules.find? fun rule => rule.matcher.matchRule key).map
          RabbitDigger.RuleItem.target).elim (.error .notMatched) .ok) := by
  simp only [scanRules, hkey]
  cases rules.find? fun rule => rule.matcher.matchRule key <;> rfl

/-- **If the matchers are merged rightly, the choice of a target stays.** -/
theorem sameChoice_of_unites {a b merged : RuleItem deps ν} (htarget : merged.target = a.target)
    (hrepresent : json.eq a.target.represent b.target.represent = true)
    (hunites : ∀ mc, merged.matcher.matchRule mc
      = (a.matcher.matchRule mc || b.matcher.matchRule mc)) :
    SameChoice json a b merged := by
  intro getNet hcongr pre post hresolved
  have hmerged : ∀ item ∈ pre ++ merged :: post, ResolvedBy getNet item := by
    intro item hitem
    rcases List.mem_append.mp hitem with hpre | hrest
    · exact hresolved item (List.mem_append_left _ hpre)
    · rcases List.mem_cons.mp hrest with rfl | hpost
      · unfold ResolvedBy
        rw [htarget]
        exact hresolved a (by simp)
      · exact hresolved item (by simp [hpost])
  refine ⟨_, _, ruleNew_of_resolved hresolved, ruleNew_of_resolved hmerged, ?_⟩
  intro ctx target result result' hresult hresult'
  rw [hresult.eq_scanRules, hresult'.eq_scanRules]
  cases hkey : MatchContext.fromContextAddress deps.std ctx target with
  | error e => simp only [scanRules, hkey]
  | ok key =>
      rw [scanRules_target _ ctx target hkey, scanRules_target _ ctx target hkey]
      congr 1
      simp only [List.map_append, List.map_cons]
      refine find?_merged (hunites key) ?_ ?_ _ _
      · exact congrArg (fun ref : ConfigVisit.NetRef ν => getNet ref.represent) htarget
      · show getNet merged.target.represent = getNet b.target.represent
        rw [htarget]
        exact hcongr _ _ hrepresent

end Choice

/-- **When merging is right.**  For any two items, `RuleItem::merge` does what it is for if and
only if they have different targets, or are not both domain matchers, or the domains of the
second mean the same under the method of the first on every name that the first does not match. -/
theorem merge_lawful_iff (json : Json) (a b : RuleItem deps ν) :
    Lawful json a b ↔ Compatible json a b := by
  constructor
  · intro h hrepresent
    obtain ⟨hmatcher, hmerged⟩ := merge_matcher hrepresent
    refine (unites_iff a.matcher b.matcher).mp fun htrue mc => ?_
    rw [← hmatcher]
    exact h.unites (hmerged.trans htrue) mc
  · intro h
    have hunites : (a.merge json b).2 = true → ∀ mc, (a.merge json b).1.matcher.matchRule mc
        = (a.matcher.matchRule mc || b.matcher.matchRule mc) := by
      intro htrue mc
      have hrepresent := represent_of_merged htrue
      obtain ⟨hmatcher, hmerged⟩ := merge_matcher hrepresent
      rw [hmatcher]
      exact (unites_iff _ _).mpr (h hrepresent) (hmerged.symm.trans htrue) mc
    refine ⟨merge_unchanged, merge_target, hunites, fun htrue => ?_⟩
    exact sameChoice_of_unites merge_target (represent_of_merged htrue) (hunites htrue)

/-- No CIDR blocks, no countries. -/
def plainDeps : MatcherDeps :=
  ⟨⟨fun _ => none, fun _ => none⟩, Unit, fun _ _ => false, fun _ => .failed⟩

/-- Values that are names of nets. -/
def names : Json := ⟨fun v w => v.asStr.isSome && v.asStr == w.asStr, fun v => v.asStr.getD ""⟩

/-- A rule for a keyword, with a resolved target. -/
def keywordItem : RuleItem plainDeps ℕ :=
  ⟨⟨.string "proxy", some 1⟩, .domain ⟨.keyword, ["example"]⟩⟩

/-- A rule for a suffix, with the same target. -/
def suffixItem : RuleItem plainDeps ℕ :=
  ⟨⟨.string "proxy", some 1⟩, .domain ⟨.suffix, [".com"]⟩⟩

/-- The rule for everything else. -/
def anyItem : RuleItem plainDeps ℕ := ⟨⟨.string "local", some 0⟩, .any⟩

/-- **A suffix that has become a keyword.**  The items are merged, and then `www.company.org`,
which matches neither of the two, goes to their target. -/
theorem suffix_becomes_keyword :
    (keywordItem.merge names suffixItem).2 = true ∧
      keywordItem.matcher.matchRule (contextOf "www.company.org") = false ∧
      suffixItem.matcher.matchRule (contextOf "www.company.org") = false ∧
      (keywordItem.merge names suffixItem).1.matcher.matchRule
        (contextOf "www.company.org") = true ∧
      ((ruleNew names [keywordItem, suffixItem, anyItem]).map fun rules =>
        ((scanRules rules .new (.domain "www.company.org" 80)).toOption.map
          RabbitDigger.RuleItem.target)) = some (some 0) ∧
      ((ruleNew names [(keywordItem.merge names suffixItem).1, anyItem]).map fun rules =>
        ((scanRules rules .new (.domain "www.company.org" 80)).toOption.map
          RabbitDigger.RuleItem.target)) = some (some 1) := by
  refine ⟨by decide, by decide, by decide, by decide, by decide, by decide⟩

end RuleConfig

end RabbitDigger
