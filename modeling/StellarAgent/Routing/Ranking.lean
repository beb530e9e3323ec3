import StellarAgent.Lib.StableSort
import StellarAgent.Routing.Planner
import StellarAgent.Routing.Utf8Order

set_option autoImplicit false

/-! # Ranking routes

`rankRoutes` of `packages/core/src/math/routing.ts`: eligible routes sorted by score, output,
slippage, hop count and id. Between valid routes the comparison is a linear order by these five keys
(`compareScoredRoutes_le_iff`), so routes with distinct ids have one ranking whatever order they come
in. A route that dominates another stands before it, unless they have the same four keys and only
the ids decide (`rankRoutes_ranked`).
-/

namespace StellarAgent.Routing

open Lib

/-! ## The sort -/

/-- `a - b` of two integers -/
def compareNumbers (a b : Number) : Ordering :=
  if a.lt b then .lt else if b.lt a then .gt else .eq

def compareScoredRoutes (a b : ScoredRoute) : Ordering :=
  let scoreA := amountOf a.score
  let scoreB := amountOf b.score
  if scoreA ≠ scoreB then (if scoreA < scoreB then .lt else .gt)
  else
    let outputA := amountOf a.quote.expectedDestinationAmount
    let outputB := amountOf b.quote.expectedDestinationAmount
    if outputA ≠ outputB then (if outputA > outputB then .lt else .gt)
    else if a.quote.expectedSlippageBps ≠ b.quote.expectedSlippageBps then
      compareNumbers a.quote.expectedSlippageBps b.quote.expectedSlippageBps
    else if a.quote.hopCount ≠ b.quote.hopCount then
      compareNumbers a.quote.hopCount b.quote.hopCount
    else binaryCompare a.quote.id b.quote.id

/-- The filter of `rankRoutes`, which validates each route -/
def eligibleRoutes (policy : RoutingPolicy) : List RouteQuote → Except Thrown (List RouteQuote)
  | [] => .ok []
  | route :: rest => do
      validateRoute route
      let kept ← eligibleRoutes policy rest
      return if isRouteEligible route policy then route :: kept else kept

def scoreRoutes (policy : RoutingPolicy) : List RouteQuote → Except Thrown (List ScoredRoute)
  | [] => .ok []
  | route :: rest => do
      let first ← scoreRoute route policy
      let others ← scoreRoutes policy rest
      return first :: others

def sortScored (routes : List ScoredRoute) : List ScoredRoute :=
  routes.insertionSort fun a b => compareScoredRoutes a b ≠ .gt

def rankRoutes (routes : List RouteQuote) (policy : RoutingPolicy) :
    Except Thrown (List ScoredRoute) := do
  validatePolicy policy
  let eligible ← eligibleRoutes policy routes
  let scored ← scoreRoutes policy eligible
  return sortScored scored

/-! ## Valid routes and policies -/

/-- What `validateRoute` lets through -/
structure ValidRoute (route : RouteQuote) : Prop where
  id : route.id ≠ ""
  output : isPositiveCanonical route.expectedDestinationAmount = true
  fee : route.totalFeeBps.isIntegerIn 0 10000 = true
  slippage : route.expectedSlippageBps.isIntegerIn 0 10000 = true
  reliability : route.reliabilityBps.isIntegerIn 0 10000 = true
  hopCount : route.hopCount.isInteger = true ∧ route.hopCount.lt 1 = false

theorem ValidRoute.of_ok {route : RouteQuote} (h : validateRoute route = .ok ()) :
    ValidRoute route := by
  obtain ⟨hid, -, houtput, hbps, hcount⟩ := RoutePlanner.validateRoute_ok.mp h
  exact ⟨hid, houtput, hbps ("totalFeeBps", route.totalFeeBps) (by simp [bpsFields]),
    hbps ("expectedSlippageBps", route.expectedSlippageBps) (by simp [bpsFields]),
    hbps ("reliabilityBps", route.reliabilityBps) (by simp [bpsFields]), hcount⟩

/-- An integer is its `BigInt`. -/
theorem isInteger_eq {value : Number} (h : value.isInteger = true) :
    value = .finite value.toInt := by
  cases value with
  | finite q =>
      have hden : q.den = 1 := by simpa [Number.isInteger] using h
      rw [Number.toInt, Rat.den_eq_one_iff q |>.mp hden]
  | infinite negative => cases h
  | nan => cases h

theorem lt_ofInt (a b : ℤ) : Number.lt (.finite a) (.finite b) = decide (a < b) := by
  simp [Number.lt]

theorem isIntegerIn_bounds {value : Number} (h : value.isIntegerIn 0 10000 = true) :
    value = .finite value.toInt ∧ 0 ≤ value.toInt ∧ value.toInt ≤ 10000 := by
  unfold Number.isIntegerIn at h
  simp only [Bool.and_eq_true, Bool.not_eq_true'] at h
  obtain ⟨⟨hinteger, hlow⟩, hhigh⟩ := h
  have heq := isInteger_eq hinteger
  generalize value.toInt = n at heq
  subst heq
  have hlow : Number.lt (.finite n) (.finite (0 : ℤ)) = false := hlow
  have hhigh : Number.lt (.finite (10000 : ℤ)) (.finite n) = false := hhigh
  rw [lt_ofInt, decide_eq_false_iff_not, not_lt] at hlow hhigh
  exact ⟨rfl, hlow, hhigh⟩

theorem hopCount_bounds {value : Number} (h : value.isInteger = true ∧ value.lt 1 = false) :
    value = .finite value.toInt ∧ 1 ≤ value.toInt := by
  have heq := isInteger_eq h.1
  have hlow := h.2
  generalize value.toInt = n at heq
  subst heq
  have hlow : Number.lt (.finite n) (.finite (1 : ℤ)) = false := hlow
  rw [lt_ofInt, decide_eq_false_iff_not, not_lt] at hlow
  exact ⟨rfl, hlow⟩

theorem compareNumbers_ofInt (m n : ℤ) :
    compareNumbers (.finite m) (.finite n) ≠ .gt ↔ m ≤ n := by
  unfold compareNumbers
  rw [lt_ofInt, lt_ofInt]
  by_cases hlt : m < n
  · simp [hlt, hlt.le]
  · by_cases hgt : n < m
    · simp [hlt, hgt]
    · simp [hlt, hgt, not_lt.mp hgt]

theorem compareNumbers_le_iff {a b : Number} (ha : a = .finite a.toInt) (hb : b = .finite b.toInt) :
    compareNumbers a b ≠ .gt ↔ a.toInt ≤ b.toInt := by
  have hints := compareNumbers_ofInt a.toInt b.toInt
  rwa [← ha, ← hb] at hints

/-! ## The order of the comparison -/

/-- The five keys of a scored route, the best one first -/
def rankKey (route : ScoredRoute) : ℕ ×ₗ ℤ ×ₗ ℤ ×ₗ ℤ ×ₗ List ℕ :=
  toLex (amountOf route.score, toLex (-(amountOf route.quote.expectedDestinationAmount : ℤ),
    toLex (route.quote.expectedSlippageBps.toInt,
      toLex (route.quote.hopCount.toInt, utf8 route.quote.id))))

theorem compareScoredRoutes_le_iff {a b : ScoredRoute} (ha : ValidRoute a.quote)
    (hb : ValidRoute b.quote) : compareScoredRoutes a b ≠ .gt ↔ rankKey a ≤ rankKey b := by
  have hslippageA := (isIntegerIn_bounds ha.slippage).1
  have hslippageB := (isIntegerIn_bounds hb.slippage).1
  have hcountA := (hopCount_bounds ha.hopCount).1
  have hcountB := (hopCount_bounds hb.hopCount).1
  have hslippage : a.quote.expectedSlippageBps = b.quote.expectedSlippageBps ↔
      a.quote.expectedSlippageBps.toInt = b.quote.expectedSlippageBps.toInt := by
    refine ⟨congrArg _, fun h => ?_⟩
    rw [hslippageA, hslippageB, h]
  have hcount : a.quote.hopCount = b.quote.hopCount ↔
      a.quote.hopCount.toInt = b.quote.hopCount.toInt := by
    refine ⟨congrArg _, fun h => ?_⟩
    rw [hcountA, hcountB, h]
  unfold compareScoredRoutes rankKey
  dsimp only
  rw [Prod.Lex.toLex_le_toLex, Prod.Lex.toLex_le_toLex, Prod.Lex.toLex_le_toLex,
    Prod.Lex.toLex_le_toLex]
  by_cases hscore : amountOf a.score = amountOf b.score
  · rw [if_neg (not_not.mpr hscore), hscore]
    by_cases houtput : amountOf a.quote.expectedDestinationAmount =
        amountOf b.quote.expectedDestinationAmount
    · rw [if_neg (not_not.mpr houtput), houtput]
      by_cases hsame : a.quote.expectedSlippageBps = b.quote.expectedSlippageBps
      · rw [if_neg (not_not.mpr hsame), hslippage.mp hsame]
        by_cases hhops : a.quote.hopCount = b.quote.hopCount
        · rw [if_neg (not_not.mpr hhops), hcount.mp hhops, binaryCompare, compareUtf8_le_iff]
          simp
        · rw [if_pos hhops, compareNumbers_le_iff hcountA hcountB]
          have hne : a.quote.hopCount.toInt ≠ b.quote.hopCount.toInt :=
            fun heq => hhops (hcount.mpr heq)
          simp [hne, le_iff_lt_or_eq]
      · rw [if_pos hsame, compareNumbers_le_iff hslippageA hslippageB]
        have hne : a.quote.expectedSlippageBps.toInt ≠ b.quote.expectedSlippageBps.toInt :=
          fun heq => hsame (hslippage.mpr heq)
        simp [hne, le_iff_lt_or_eq]
    · rw [if_pos houtput]
      split_ifs with hlt
      · simp [hlt]
      · simp only [ne_eq, not_true_eq_false, lt_self_iff_false, neg_lt_neg_iff, Nat.cast_lt,
          true_and, false_or, neg_inj, Nat.cast_inj, false_iff]
        omega
  · rw [if_pos hscore]
    split_ifs with hlt
    · simp [hlt]
    · simp [hlt, hscore]

/-! ## Scores -/

/-- The weights and the penalty of a valid policy are not negative. -/
theorem policy_nonneg {policy : RoutingPolicy} (h : validatePolicy policy = .ok ())
    {name : String} {value : Number} (hentry : (name, value) ∈ policyEntries policy) :
    0 ≤ value.toInt := by
  unfold validatePolicy at h
  cases hfind : (policyEntries policy).find? fun entry =>
      !entry.2.isSafeInteger || entry.2.lt 0 with
  | some entry =>
      rw [hfind] at h
      cases h
  | none =>
      have hgood := List.find?_eq_none.mp hfind _ hentry
      simp only [Bool.or_eq_true, Bool.not_eq_true', not_or, Bool.not_eq_false,
        Bool.not_eq_true] at hgood
      have hinteger : value.isInteger = true := by
        have hsafe := hgood.1
        unfold Number.isSafeInteger Number.isIntegerIn at hsafe
        simp only [Bool.and_eq_true] at hsafe
        exact hsafe.1.1
      have hlow := hgood.2
      rw [isInteger_eq hinteger] at hlow
      have hlow : Number.lt (.finite value.toInt) (.finite (0 : ℤ)) = false := hlow
      rw [lt_ofInt, decide_eq_false_iff_not, not_lt] at hlow
      exact hlow

/-- The number that is the score of a route -/
def scoreOf (policy : RoutingPolicy) (route : RouteQuote) : ℤ :=
  weighted route.totalFeeBps policy.costWeight +
    weighted route.expectedSlippageBps policy.slippageWeight +
    weighted (.finite (ROUTING_WEIGHT_SCALE - route.reliabilityBps.toInt))
      policy.reliabilityWeight +
    (route.hopCount.toInt - 1) * policy.hopPenalty.toInt

theorem weighted_mono {value value' weight : Number} (hweight : 0 ≤ weight.toInt)
    (h : value.toInt ≤ value'.toInt) : weighted value weight ≤ weighted value' weight :=
  Int.ediv_le_ediv (by decide) (mul_le_mul_of_nonneg_right h hweight)

theorem weighted_nonneg {value weight : Number} (hvalue : 0 ≤ value.toInt)
    (hweight : 0 ≤ weight.toInt) : 0 ≤ weighted value weight :=
  Int.ediv_nonneg (mul_nonneg hvalue hweight) (by decide)

theorem shortfall_toInt (route : RouteQuote) :
    (Number.finite (ROUTING_WEIGHT_SCALE - route.reliabilityBps.toInt)).toInt =
      10000 - route.reliabilityBps.toInt := by
  have hcast : ((ROUTING_WEIGHT_SCALE : ℚ) - route.reliabilityBps.toInt) =
      ((10000 - route.reliabilityBps.toInt : ℤ) : ℚ) := by
    rw [ROUTING_WEIGHT_SCALE]
    push_cast
    rfl
  rw [hcast, Number.toInt, Rat.num_intCast]

theorem amountOf_toString {n : ℤ} (h : 0 ≤ n) : (amountOf (toString n) : ℤ) = n := by
  obtain ⟨m, rfl⟩ := Int.eq_ofNat_of_zero_le h
  have hchars : (toString (m : ℤ)).toList = Nat.toDigits 10 m := by
    show (toString m).toList = _
    simp
  rw [amountOf, hchars, Nat.ofDigitChars_ten_toDigits]

section

variable {policy : RoutingPolicy} {a b : RouteQuote}

theorem scoreOf_nonneg (hpolicy : validatePolicy policy = .ok ()) (h : ValidRoute a) :
    0 ≤ scoreOf policy a := by
  have hcost := policy_nonneg hpolicy
    (show ("costWeight", policy.costWeight) ∈ policyEntries policy by simp [policyEntries])
  have hslippage := policy_nonneg hpolicy
    (show ("slippageWeight", policy.slippageWeight) ∈ policyEntries policy by simp [policyEntries])
  have hreliability := policy_nonneg hpolicy
    (show ("reliabilityWeight", policy.reliabilityWeight) ∈ policyEntries policy by
      simp [policyEntries])
  have hpenalty := policy_nonneg hpolicy
    (show ("hopPenalty", policy.hopPenalty) ∈ policyEntries policy by simp [policyEntries])
  have hshortfall : 0 ≤ (Number.finite (ROUTING_WEIGHT_SCALE - a.reliabilityBps.toInt)).toInt := by
    rw [shortfall_toInt]
    have := (isIntegerIn_bounds h.reliability).2.2
    omega
  have hhops : 0 ≤ (a.hopCount.toInt - 1) * policy.hopPenalty.toInt :=
    mul_nonneg (by have := (hopCount_bounds h.hopCount).2; omega) hpenalty
  have h₁ := weighted_nonneg (isIntegerIn_bounds h.fee).2.1 hcost
  have h₂ := weighted_nonneg (isIntegerIn_bounds h.slippage).2.1 hslippage
  have h₃ := weighted_nonneg hshortfall hreliability
  unfold scoreOf
  omega

theorem amountOf_score (hpolicy : validatePolicy policy = .ok ()) (h : ValidRoute a) :
    (amountOf (scored a policy).score : ℤ) = scoreOf policy a :=
  amountOf_toString (scoreOf_nonneg hpolicy h)

/-! ## Dominance -/

/-- At least as good in fee, slippage, reliability, hop count and output -/
structure AtLeastAsGood (a b : RouteQuote) : Prop where
  fee : a.totalFeeBps.toInt ≤ b.totalFeeBps.toInt
  slippage : a.expectedSlippageBps.toInt ≤ b.expectedSlippageBps.toInt
  reliability : b.reliabilityBps.toInt ≤ a.reliabilityBps.toInt
  hopCount : a.hopCount.toInt ≤ b.hopCount.toInt
  output : amountOf b.expectedDestinationAmount ≤ amountOf a.expectedDestinationAmount

/-- At least as good in everything, and strictly better in something -/
structure Dominates (a b : RouteQuote) : Prop extends AtLeastAsGood a b where
  strict : a.totalFeeBps.toInt < b.totalFeeBps.toInt ∨
    a.expectedSlippageBps.toInt < b.expectedSlippageBps.toInt ∨
    b.reliabilityBps.toInt < a.reliabilityBps.toInt ∨ a.hopCount.toInt < b.hopCount.toInt ∨
    amountOf b.expectedDestinationAmount < amountOf a.expectedDestinationAmount

/-- Only the ids tell the two apart: score, output, slippage and hop count are the same. -/
structure Tied (policy : RoutingPolicy) (a b : RouteQuote) : Prop where
  score : scoreOf policy a = scoreOf policy b
  output : amountOf a.expectedDestinationAmount = amountOf b.expectedDestinationAmount
  slippage : a.expectedSlippageBps.toInt = b.expectedSlippageBps.toInt
  hopCount : a.hopCount.toInt = b.hopCount.toInt

/-- Scores respect dominance, through the floors and whatever weights are zero. -/
theorem scoreOf_mono (hpolicy : validatePolicy policy = .ok ()) (h : AtLeastAsGood a b) :
    scoreOf policy a ≤ scoreOf policy b := by
  have hcost := weighted_mono (policy_nonneg hpolicy
    (show ("costWeight", policy.costWeight) ∈ policyEntries policy by simp [policyEntries])) h.fee
  have hslippage := weighted_mono (policy_nonneg hpolicy
    (show ("slippageWeight", policy.slippageWeight) ∈ policyEntries policy by
      simp [policyEntries])) h.slippage
  have hshortfall : (Number.finite (ROUTING_WEIGHT_SCALE - a.reliabilityBps.toInt)).toInt ≤
      (Number.finite (ROUTING_WEIGHT_SCALE - b.reliabilityBps.toInt)).toInt := by
    rw [shortfall_toInt, shortfall_toInt]
    have := h.reliability
    omega
  have hreliability := weighted_mono (policy_nonneg hpolicy
    (show ("reliabilityWeight", policy.reliabilityWeight) ∈ policyEntries policy by
      simp [policyEntries])) hshortfall
  have hpenalty : (a.hopCount.toInt - 1) * policy.hopPenalty.toInt ≤
      (b.hopCount.toInt - 1) * policy.hopPenalty.toInt :=
    mul_le_mul_of_nonneg_right (by have := h.hopCount; omega) (policy_nonneg hpolicy
      (show ("hopPenalty", policy.hopPenalty) ∈ policyEntries policy by simp [policyEntries]))
  unfold scoreOf
  omega

theorem rankKey_lt (hpolicy : validatePolicy policy = .ok ()) (ha : ValidRoute a)
    (hb : ValidRoute b) (h : AtLeastAsGood a b) (hapart : ¬ Tied policy a b) :
    rankKey (scored a policy) < rankKey (scored b policy) := by
  have hscoreA := amountOf_score hpolicy ha
  have hscoreB := amountOf_score hpolicy hb
  have hscore := scoreOf_mono hpolicy h
  have hslippage := h.slippage
  have hhops := h.hopCount
  have houtput := h.output
  unfold rankKey
  rw [Prod.Lex.toLex_lt_toLex, Prod.Lex.toLex_lt_toLex, Prod.Lex.toLex_lt_toLex,
    Prod.Lex.toLex_lt_toLex]
  by_cases h₁ : scoreOf policy a = scoreOf policy b
  · refine Or.inr ⟨by omega, ?_⟩
    by_cases h₂ : amountOf a.expectedDestinationAmount = amountOf b.expectedDestinationAmount
    · refine Or.inr ⟨by show -(_ : ℤ) = -_; rw [show (scored a policy).quote = a from rfl,
        show (scored b policy).quote = b from rfl, h₂], ?_⟩
      by_cases h₃ : a.expectedSlippageBps.toInt = b.expectedSlippageBps.toInt
      · refine Or.inr ⟨h₃, Or.inl ?_⟩
        exact lt_of_le_of_ne hhops fun h₄ => hapart ⟨h₁, h₂, h₃, h₄⟩
      · exact Or.inl (lt_of_le_of_ne hslippage h₃)
    · refine Or.inl ?_
      show -(amountOf a.expectedDestinationAmount : ℤ) < -(amountOf b.expectedDestinationAmount : ℤ)
      omega
  · refine Or.inl ?_
    omega

theorem rankKey_lt_of_tied (hpolicy : validatePolicy policy = .ok ()) (ha : ValidRoute a)
    (hb : ValidRoute b) (h : Tied policy a b) :
    rankKey (scored b policy) < rankKey (scored a policy) ↔ utf8 b.id < utf8 a.id := by
  have hscore : amountOf (scored b policy).score = amountOf (scored a policy).score := by
    have hscoreA := amountOf_score hpolicy ha
    have hscoreB := amountOf_score hpolicy hb
    have := h.score
    omega
  have houtput : amountOf (scored b policy).quote.expectedDestinationAmount =
      amountOf (scored a policy).quote.expectedDestinationAmount := h.output.symm
  have hslippage : (scored b policy).quote.expectedSlippageBps.toInt =
      (scored a policy).quote.expectedSlippageBps.toInt := h.slippage.symm
  have hhops : (scored b policy).quote.hopCount.toInt =
      (scored a policy).quote.hopCount.toInt := h.hopCount.symm
  unfold rankKey
  rw [hscore, houtput, hslippage, hhops]
  simp only [Prod.Lex.toLex_lt_toLex, lt_self_iff_false, true_and, false_or]
  exact Iff.rfl

/-- A dominating route stands after the other only on a tie, and then by the ids. -/
theorem rankKey_lt_iff (hpolicy : validatePolicy policy = .ok ()) (ha : ValidRoute a)
    (hb : ValidRoute b) (h : AtLeastAsGood a b) :
    rankKey (scored b policy) < rankKey (scored a policy) ↔
      Tied policy a b ∧ utf8 b.id < utf8 a.id := by
  by_cases htied : Tied policy a b
  · rw [rankKey_lt_of_tied hpolicy ha hb htied, and_iff_right htied]
  · have hlt := rankKey_lt hpolicy ha hb h htied
    exact iff_of_false (lt_asymm hlt) fun hboth => htied hboth.1

end

/-! ## What is ranked -/

section

variable {policy : RoutingPolicy} {routes : List RouteQuote}

theorem eligibleRoutes_ok (hvalid : ∀ route ∈ routes, validateRoute route = .ok ()) :
    eligibleRoutes policy routes = .ok (routes.filter (isRouteEligible · policy)) := by
  induction routes with
  | nil => rfl
  | cons route rest ih =>
      have hrest := ih fun other hother => hvalid other (List.mem_cons_of_mem route hother)
      rw [eligibleRoutes, hvalid route List.mem_cons_self, ok_bind, hrest, ok_bind]
      by_cases heligible : isRouteEligible route policy = true
      · rw [if_pos heligible, List.filter_cons, if_pos heligible]
        rfl
      · rw [if_neg heligible, List.filter_cons, if_neg heligible]
        rfl

theorem scoreRoutes_ok (hpolicy : validatePolicy policy = .ok ())
    (hvalid : ∀ route ∈ routes, validateRoute route = .ok ())
    (heligible : ∀ route ∈ routes, isRouteEligible route policy = true) :
    scoreRoutes policy routes = .ok (routes.map (scored · policy)) := by
  induction routes with
  | nil => rfl
  | cons route rest ih =>
      have hfirst : scoreRoute route policy = .ok (scored route policy) := by
        have hroute := heligible route List.mem_cons_self
        rw [scoreRoute, hpolicy, ok_bind, hvalid route List.mem_cons_self, ok_bind,
          if_neg (by rw [hroute]; decide)]
        rfl
      have hrest := ih (fun other hother => hvalid other (List.mem_cons_of_mem route hother))
        fun other hother => heligible other (List.mem_cons_of_mem route hother)
      rw [scoreRoutes, hfirst, ok_bind, hrest, ok_bind]
      rfl

/-- The eligible routes, scored -/
def candidates (policy : RoutingPolicy) (routes : List RouteQuote) : List ScoredRoute :=
  (routes.filter (isRouteEligible · policy)).map (scored · policy)

theorem rankRoutes_ok (hpolicy : validatePolicy policy = .ok ())
    (hvalid : ∀ route ∈ routes, validateRoute route = .ok ()) :
    rankRoutes routes policy = .ok (sortScored (candidates policy routes)) := by
  have hscored : scoreRoutes policy (routes.filter (isRouteEligible · policy)) =
      .ok (candidates policy routes) :=
    scoreRoutes_ok hpolicy (fun route hroute => hvalid route (List.mem_of_mem_filter hroute))
      fun route hroute => (List.mem_filter.mp hroute).2
  rw [rankRoutes, hpolicy, ok_bind, eligibleRoutes_ok hvalid, ok_bind, hscored, ok_bind]
  rfl

theorem quotes_candidates :
    (candidates policy routes).map ScoredRoute.quote =
      routes.filter (isRouteEligible · policy) := by
  rw [candidates, List.map_map]
  exact List.map_id _

theorem mem_candidates {route : ScoredRoute} (h : route ∈ candidates policy routes) :
    route.quote ∈ routes ∧ route = scored route.quote policy := by
  obtain ⟨quote, hquote, rfl⟩ := List.mem_map.mp h
  exact ⟨List.mem_of_mem_filter hquote, rfl⟩

theorem candidates_valid (hvalid : ∀ route ∈ routes, validateRoute route = .ok ()) :
    ∀ route ∈ candidates policy routes, ValidRoute route.quote :=
  fun _ hroute => ValidRoute.of_ok (hvalid _ (mem_candidates hroute).1)

/-- Valid routes are sorted by their keys. -/
theorem sortScored_eq {scoredRoutes : List ScoredRoute}
    (h : ∀ route ∈ scoredRoutes, ValidRoute route.quote) :
    sortScored scoredRoutes = scoredRoutes.insertionSort fun a b => rankKey a ≤ rankKey b := by
  refine insertionSort_congr (List.pairwise_of_forall_mem_list fun a ha b hb => ?_)
  exact compareScoredRoutes_le_iff (h a ha) (h b hb)

/-- The comparison by the keys is total and transitive. -/
instance : Std.Total fun a b : ScoredRoute => rankKey a ≤ rankKey b :=
  ⟨fun a b => le_total (rankKey a) (rankKey b)⟩

instance : IsTrans ScoredRoute fun a b => rankKey a ≤ rankKey b :=
  ⟨fun _ _ _ => le_trans⟩

theorem id_of_rankKey {a b : ScoredRoute} (h : rankKey a = rankKey b) : a.quote.id = b.quote.id := by
  simp only [rankKey, EmbeddingLike.apply_eq_iff_eq, Prod.mk.injEq] at h
  exact utf8_inj h.2.2.2.2

/-- A route has one place among candidates with distinct ids. -/
theorem candidates_eq_of_rankKey (hids : (routes.map RouteQuote.id).Nodup) {a b : ScoredRoute}
    (ha : a ∈ candidates policy routes) (hb : b ∈ candidates policy routes)
    (h : rankKey a = rankKey b) : a = b := by
  obtain ⟨hmemA, heqA⟩ := mem_candidates ha
  obtain ⟨hmemB, heqB⟩ := mem_candidates hb
  have hquote : a.quote = b.quote :=
    List.inj_on_of_nodup_map hids hmemA hmemB (id_of_rankKey h)
  rw [heqA, heqB, hquote]

/-- Routes with distinct ids stand in the strict order of their keys. -/
theorem sortScored_strict (hvalid : ∀ route ∈ routes, validateRoute route = .ok ())
    (hids : (routes.map RouteQuote.id).Nodup) :
    (sortScored (candidates policy routes)).Pairwise fun a b => rankKey a < rankKey b := by
  have hnodup : (candidates policy routes).Nodup := by
    refine List.Nodup.map (fun x y hxy => ?_) ((hids.of_map _).filter _)
    exact congrArg ScoredRoute.quote hxy
  rw [sortScored_eq (candidates_valid hvalid)]
  have hperm := List.perm_insertionSort (fun a b : ScoredRoute => rankKey a ≤ rankKey b)
    (candidates policy routes)
  have hsorted := List.pairwise_insertionSort (fun a b : ScoredRoute => rankKey a ≤ rankKey b)
    (candidates policy routes)
  refine (hsorted.and (hperm.nodup_iff.mpr hnodup)).imp_of_mem fun ha hb hab => ?_
  refine lt_of_le_of_ne hab.1 fun heq => hab.2 ?_
  exact candidates_eq_of_rankKey hids (hperm.mem_iff.mp ha) (hperm.mem_iff.mp hb) heq

instance : Std.Asymm fun a b : ScoredRoute => rankKey a < rankKey b :=
  ⟨fun _ _ => lt_asymm⟩

/-- **Ranking respects dominance as far as it can see it**: of two eligible routes the dominating one
stands after the other exactly if score, output, slippage and hop count tie and its id is larger. -/
theorem rankRoutes_ranked (policy : RoutingPolicy) (routes : List RouteQuote)
    (hpolicy : validatePolicy policy = .ok ())
    (hvalid : ∀ route ∈ routes, validateRoute route = .ok ())
    (hids : (routes.map RouteQuote.id).Nodup) :
    ∃ ranked, rankRoutes routes policy = .ok ranked ∧
      (ranked.map ScoredRoute.quote).Perm (routes.filter (isRouteEligible · policy)) ∧
      (∀ routes' : List RouteQuote, routes'.Perm routes →
        rankRoutes routes' policy = .ok ranked) ∧
      ∀ a ∈ routes.filter (isRouteEligible · policy),
        ∀ b ∈ routes.filter (isRouteEligible · policy), Dominates a b →
          ([b, a].Sublist (ranked.map ScoredRoute.quote) ↔
            Tied policy a b ∧ utf8 b.id < utf8 a.id) := by
  have hroutes : ∀ route ∈ candidates policy routes, ValidRoute route.quote :=
    candidates_valid hvalid
  have hsorted := sortScored_eq hroutes
  have hranked : (sortScored (candidates policy routes)).Perm (candidates policy routes) :=
    List.perm_insertionSort _ _
  refine ⟨_, rankRoutes_ok hpolicy hvalid, ?_, fun routes' hperm => ?_, fun a ha b hb hdom => ?_⟩
  · rw [← quotes_candidates]
    exact hranked.map ScoredRoute.quote
  · rw [rankRoutes_ok hpolicy fun route hroute => hvalid route (hperm.mem_iff.mp hroute)]
    have hcandidates : (candidates policy routes).Perm (candidates policy routes') :=
      ((hperm.symm.filter _).map _)
    rw [hsorted, sortScored_eq fun route hroute => hroutes route (hcandidates.mem_iff.mpr hroute)]
    exact congrArg _ (insertionSort_eq_of_perm hcandidates fun x hx y hy hxy hyx =>
      candidates_eq_of_rankKey hids hx hy (le_antisymm hxy hyx)).symm
  · have hmem : ∀ route ∈ routes.filter (isRouteEligible · policy),
        scored route policy ∈ sortScored (candidates policy routes) :=
      fun route hroute => hranked.mem_iff.mpr (List.mem_map_of_mem hroute)
    have hvalidOf : ∀ route ∈ routes.filter (isRouteEligible · policy), ValidRoute route :=
      fun route hroute => ValidRoute.of_ok (hvalid route (List.mem_of_mem_filter hroute))
    -- a ranked route is known from its quote
    have hpairs : [b, a].Sublist ((sortScored (candidates policy routes)).map ScoredRoute.quote) ↔
        [scored b policy, scored a policy].Sublist (sortScored (candidates policy routes)) := by
      refine ⟨fun hsub => ?_, fun hsub => hsub.map ScoredRoute.quote⟩
      have hback := hsub.map (scored · policy)
      rw [List.map_map] at hback
      have hid : (sortScored (candidates policy routes)).map
          ((scored · policy) ∘ ScoredRoute.quote) = sortScored (candidates policy routes) := by
        conv_rhs => rw [← List.map_id (sortScored (candidates policy routes))]
        refine List.map_congr_left fun route hroute => ?_
        exact (mem_candidates (hranked.mem_iff.mp hroute)).2.symm
      rwa [hid] at hback
    rw [hpairs, pair_sublist_iff (sortScored_strict hvalid hids) (hmem b hb) (hmem a ha)]
    exact rankKey_lt_iff hpolicy (hvalidOf a ha) (hvalidOf b hb) hdom.toAtLeastAsGood

end

/-! ## Two fees that weigh the same -/

/-- A direct route with a fee that the default weights round away -/
def cheapRoute (id : String) (fee : Number) : RouteQuote where
  id
  sourceAsset := "XLM"
  destinationAsset := "USDC"
  sourceAmount := "100"
  expectedDestinationAmount := "90"
  totalFeeBps := fee
  expectedSlippageBps := 10
  reliabilityBps := 9000
  hopCount := 1
  hops := []
  expiresAtLedger := none

theorem rankRoutes_ranked_default :
    ∃ ranked, rankRoutes [cheapRoute "b" 1, cheapRoute "a" 0] DEFAULT_ROUTING_POLICY = .ok ranked ∧
      (ranked.map ScoredRoute.quote).Perm
        ([cheapRoute "b" 1, cheapRoute "a" 0].filter
          (isRouteEligible · DEFAULT_ROUTING_POLICY)) ∧
      (∀ routes' : List RouteQuote, routes'.Perm [cheapRoute "b" 1, cheapRoute "a" 0] →
        rankRoutes routes' DEFAULT_ROUTING_POLICY = .ok ranked) ∧
      ∀ a ∈ [cheapRoute "b" 1, cheapRoute "a" 0].filter
          (isRouteEligible · DEFAULT_ROUTING_POLICY),
        ∀ b ∈ [cheapRoute "b" 1, cheapRoute "a" 0].filter
            (isRouteEligible · DEFAULT_ROUTING_POLICY), Dominates a b →
          ([b, a].Sublist (ranked.map ScoredRoute.quote) ↔
            Tied DEFAULT_ROUTING_POLICY a b ∧ utf8 b.id < utf8 a.id) :=
  rankRoutes_ranked DEFAULT_ROUTING_POLICY [cheapRoute "b" 1, cheapRoute "a" 0]
    (by decide +kernel) (by decide +kernel) (by decide +kernel)

/-- The route without a fee dominates the one with a fee of one basis point, which stands first. -/
theorem dominating_route_ranked_last :
    ¬ ∀ (policy : RoutingPolicy) (routes : List RouteQuote), validatePolicy policy = .ok () →
      (∀ route ∈ routes, validateRoute route = .ok ()) → (routes.map RouteQuote.id).Nodup →
      ∀ ranked, rankRoutes routes policy = .ok ranked →
        ∀ a b, Dominates a b → ¬ [b, a].Sublist (ranked.map ScoredRoute.quote) := by
  intro h
  have hranked : rankRoutes [cheapRoute "b" 0, cheapRoute "a" 1] DEFAULT_ROUTING_POLICY =
      .ok [scored (cheapRoute "a" 1) DEFAULT_ROUTING_POLICY,
        scored (cheapRoute "b" 0) DEFAULT_ROUTING_POLICY] := by
    decide +kernel
  have hdominates : Dominates (cheapRoute "b" 0) (cheapRoute "a" 1) := by
    have hfee : (cheapRoute "b" 0).totalFeeBps.toInt < (cheapRoute "a" 1).totalFeeBps.toInt := by
      decide +kernel
    exact { fee := hfee.le, slippage := le_refl _, reliability := le_refl _, hopCount := le_refl _,
            output := le_refl _, strict := Or.inl hfee }
  exact h DEFAULT_ROUTING_POLICY [cheapRoute "b" 0, cheapRoute "a" 1] (by decide +kernel)
    (by decide +kernel) (by decide +kernel) _ hranked _ _ hdominates (List.Sublist.refl _)

end StellarAgent.Routing
