import StellarAgent.Routing.Discovery

set_option autoImplicit false

/-! # Route overrides

`scoreRoute` of `packages/core/src/math/routing.ts` and `RoutePlanner.quoteOverride` of
`packages/core/src/routing/planner.ts`. An override is a route that the caller has chosen. What
`quoteOverride` checks is its summary (`quoteOverride_accepts_iff`); it never reads the hops. So an
override is as safe as a discovered route only where the caller's hops and summary already are
(`override_safe_iff`).
-/

namespace StellarAgent.Routing

open Lib

/-! ## Scoring -/

def ROUTING_WEIGHT_SCALE : ℕ := 10000

structure RoutingPolicy where
  costWeight : Number
  slippageWeight : Number
  reliabilityWeight : Number
  hopPenalty : Number
  maxSlippageBps : Number
  minReliabilityBps : Number

def DEFAULT_ROUTING_POLICY : RoutingPolicy where
  costWeight := 5000
  slippageWeight := 3000
  reliabilityWeight := 2000
  hopPenalty := 5
  maxSlippageBps := 1000
  minReliabilityBps := 5000

structure RouteScoreBreakdown where
  weightedCost : String
  weightedSlippage : String
  weightedReliability : String
  hopPenalty : String
  deriving DecidableEq

/-- A quote with its score -/
structure ScoredRoute where
  quote : RouteQuote
  score : String
  breakdown : RouteScoreBreakdown
  deriving DecidableEq

def rangeError {A : Type} (message : String) : Except Thrown A := .error (.Range message)

def policyEntries (policy : RoutingPolicy) : List (String × Number) := [
  ("costWeight", policy.costWeight), ("slippageWeight", policy.slippageWeight),
  ("reliabilityWeight", policy.reliabilityWeight), ("hopPenalty", policy.hopPenalty),
  ("maxSlippageBps", policy.maxSlippageBps), ("minReliabilityBps", policy.minReliabilityBps)]

def validatePolicy (policy : RoutingPolicy) : Except Thrown Unit :=
  match (policyEntries policy).find? fun entry => !entry.2.isSafeInteger || entry.2.lt 0 with
  | some (name, _) => rangeError s!"{name} must be a non-negative safe integer"
  | none =>
      let weightSum := (policy.costWeight.add policy.slippageWeight).add policy.reliabilityWeight
      if weightSum ≠ 10000 then
        rangeError s!"routing weights must sum to {ROUTING_WEIGHT_SCALE}, got {weightSum.text}"
      else if Number.lt 10000 policy.maxSlippageBps || Number.lt 10000 policy.minReliabilityBps then
        rangeError "routing basis-point bounds must not exceed 10000"
      else .ok ()

/-- `/^[1-9][0-9]*$/` -/
def isPositiveCanonical (text : String) : Bool := isCanonical text && text.toList != ['0']

def bpsFields (route : RouteQuote) : List (String × Number) := [
  ("totalFeeBps", route.totalFeeBps), ("expectedSlippageBps", route.expectedSlippageBps),
  ("reliabilityBps", route.reliabilityBps)]

def validateRoute (route : RouteQuote) : Except Thrown Unit :=
  if route.id = "" then rangeError "route id is required"
  else if !isPositiveCanonical route.sourceAmount ||
      !isPositiveCanonical route.expectedDestinationAmount then
    rangeError "route amounts must be positive canonical integers"
  else
    match (bpsFields route).find? fun field => !field.2.isIntegerIn 0 10000 with
    | some (name, _) => rangeError s!"{name} must be an integer from 0 to 10000"
    | none =>
        if !route.hopCount.isInteger || route.hopCount.lt 1 then
          rangeError "hopCount must be a positive integer"
        else .ok ()

/-- Whether a route clears the bounds of the policy. -/
def isRouteEligible (route : RouteQuote) (policy : RoutingPolicy) : Bool :=
  route.expectedSlippageBps.le policy.maxSlippageBps &&
    policy.minReliabilityBps.le route.reliabilityBps

def weighted (value weight : Number) : ℤ := value.toInt * weight.toInt / ROUTING_WEIGHT_SCALE

def scored (route : RouteQuote) (policy : RoutingPolicy) : ScoredRoute :=
  let weightedCost := weighted route.totalFeeBps policy.costWeight
  let weightedSlippage := weighted route.expectedSlippageBps policy.slippageWeight
  let shortfall := Number.finite (ROUTING_WEIGHT_SCALE - route.reliabilityBps.toInt)
  let weightedReliability := weighted shortfall policy.reliabilityWeight
  let hopPenalty := (route.hopCount.toInt - 1) * policy.hopPenalty.toInt
  { quote := route
    score := toString (weightedCost + weightedSlippage + weightedReliability + hopPenalty)
    breakdown := {
      weightedCost := toString weightedCost
      weightedSlippage := toString weightedSlippage
      weightedReliability := toString weightedReliability
      hopPenalty := toString hopPenalty } }

def scoreRoute (route : RouteQuote) (policy : RoutingPolicy) : Except Thrown ScoredRoute := do
  validatePolicy policy
  validateRoute route
  if isRouteEligible route policy = false then
    rangeError s!"route {route.id} is outside routing policy bounds"
  else return scored route policy

/-! ## The planner -/

def stellarAgentError {A : Type} (code message : String) : Except Thrown A :=
  .error (.StellarAgent code message none)

def positiveInteger (value : Number) (name : String) : Except Thrown Number :=
  if !value.isInteger || value.lt 1 then
    stellarAgentError "INVALID_ARGUMENT" s!"{name} must be a positive integer"
  else .ok value

def basisPoints (value : Number) (name : String) : Except Thrown Number :=
  if value.isIntegerIn 0 500 then .ok value
  else stellarAgentError "INVALID_ARGUMENT" s!"{name} must be an integer from 0 to 500"

/-- A planner, with what its constructor has checked. The bound on the hops is checked by discovery
only. -/
structure RoutePlanner where
  maxHops : Option Number
  policy : RoutingPolicy
  quoteValidityLedgers : Number
  defaultSlippageToleranceBps : Number
  valid_policy : validatePolicy policy = .ok ()
  valid_lifetime : positiveInteger quoteValidityLedgers "quoteValidityLedgers" =
    .ok quoteValidityLedgers
  valid_tolerance : basisPoints defaultSlippageToleranceBps "defaultSlippageToleranceBps" =
    .ok defaultSlippageToleranceBps

structure PaymentQuoteRequest extends RouteRequest where
  slippageToleranceBps : Option Number

structure PaymentQuote where
  route : ScoredRoute
  minimumDestinationAmount : String
  quotedAtLedger : Number
  validUntilLedger : Number

namespace RoutePlanner

variable (planner : RoutePlanner)

def finishQuote (route : ScoredRoute) (quotedAtLedger slippageToleranceBps : Number) :
    Except Thrown PaymentQuote :=
  let defaultExpiry := quotedAtLedger.add planner.quoteValidityLedgers
  if Number.lt 0xffffffff defaultExpiry then
    stellarAgentError "INVALID_ARGUMENT" "Quote expiry exceeds u32 ledger range"
  else
    let validUntilLedger := (route.quote.expiresAtLedger.getD defaultExpiry).min defaultExpiry
    let expected : ℤ := amountOf route.quote.expectedDestinationAmount
    let minimum := expected * (10000 - slippageToleranceBps.toInt) / 10000
    .ok {
      route := { route with quote := { route.quote with expiresAtLedger := some validUntilLedger } }
      minimumDestinationAmount := toString minimum
      quotedAtLedger
      validUntilLedger }

/-- What `quoteOverride` makes of what scoring throws -/
def wrapped : Thrown → Thrown
  | .StellarAgent code message cause => .StellarAgent code message cause
  | .Range message | .RouteUnavailable _ message =>
      .StellarAgent "INVALID_ROUTE_OVERRIDE" "Route override failed safety validation" (some message)

/-- Validate a route that the caller has selected. -/
def quoteOverride (request : PaymentQuoteRequest) (override : RouteQuote) :
    Except Thrown PaymentQuote :=
  let quotedAtLedger := request.currentLedger.getD 0
  if override.sourceAsset ≠ request.sourceAsset ∨
      override.destinationAsset ≠ request.destinationAsset ∨
      override.sourceAmount ≠ request.sourceAmount then
    stellarAgentError "INVALID_ROUTE_OVERRIDE"
      "Route override does not match the requested assets and source amount"
  else if override.expiresAtLedger.any fun expires => expires.lt quotedAtLedger then
    stellarAgentError "QUOTE_EXPIRED" "Route override quote has expired"
  else do
    let tolerance ← basisPoints
      (request.slippageToleranceBps.getD planner.defaultSlippageToleranceBps) "slippageToleranceBps"
    let outcome := do
      let route ← scoreRoute override planner.policy
      planner.finishQuote route quotedAtLedger tolerance
    outcome.mapError wrapped

/-- The bound that discovery puts on the hops -/
def hopLimit : Number := planner.maxHops.getD 3

/-! ## What an override must pass -/

/-- **The checks of `quoteOverride`.** None of them is about the hops. -/
structure Passes (request : PaymentQuoteRequest) (override : RouteQuote) : Prop where
  sourceAsset : override.sourceAsset = request.sourceAsset
  destinationAsset : override.destinationAsset = request.destinationAsset
  sourceAmount : override.sourceAmount = request.sourceAmount
  fresh : (override.expiresAtLedger.any fun expires =>
    expires.lt (request.currentLedger.getD 0)) = false
  tolerance : (request.slippageToleranceBps.getD planner.defaultSlippageToleranceBps).isIntegerIn
    0 500 = true
  id : override.id ≠ ""
  positive_source : isPositiveCanonical override.sourceAmount = true
  positive_output : isPositiveCanonical override.expectedDestinationAmount = true
  bps : ∀ field ∈ bpsFields override, field.2.isIntegerIn 0 10000 = true
  hopCount : override.hopCount.isInteger = true ∧ override.hopCount.lt 1 = false
  eligible : isRouteEligible override planner.policy = true
  lifetime : Number.lt 0xffffffff
    ((request.currentLedger.getD 0).add planner.quoteValidityLedgers) = false

variable {planner} {request : PaymentQuoteRequest} {override : RouteQuote}

theorem basisPoints_ok {value result : Number} {name : String} :
    basisPoints value name = .ok result ↔ value.isIntegerIn 0 500 = true ∧ value = result := by
  unfold basisPoints
  split_ifs with h
  · simp [h]
  · simp [h, stellarAgentError]

theorem validateRoute_ok :
    validateRoute override = .ok () ↔
      override.id ≠ "" ∧ isPositiveCanonical override.sourceAmount = true ∧
        isPositiveCanonical override.expectedDestinationAmount = true ∧
        (∀ field ∈ bpsFields override, field.2.isIntegerIn 0 10000 = true) ∧
        override.hopCount.isInteger = true ∧ override.hopCount.lt 1 = false := by
  unfold validateRoute
  by_cases hid : override.id = ""
  · simp [hid, rangeError]
  rw [if_neg hid]
  by_cases hamounts : (!isPositiveCanonical override.sourceAmount ||
      !isPositiveCanonical override.expectedDestinationAmount) = true
  · rw [if_pos hamounts]
    constructor
    · intro h
      cases h
    · rintro ⟨_, hsource, houtput, _⟩
      rw [hsource, houtput] at hamounts
      cases hamounts
  rw [if_neg hamounts]
  simp only [Bool.or_eq_true, Bool.not_eq_true', not_or, Bool.not_eq_false] at hamounts
  cases hfind : (bpsFields override).find? fun field => !field.2.isIntegerIn 0 10000 with
  | some field =>
      have hmem := List.mem_of_find?_eq_some hfind
      have hbad := List.find?_some hfind
      constructor
      · intro h
        cases h
      · rintro ⟨_, _, _, hbps, _⟩
        rw [hbps field hmem] at hbad
        cases hbad
  | none =>
      have hbps : ∀ field ∈ bpsFields override, field.2.isIntegerIn 0 10000 = true := by
        simpa using hfind
      dsimp only
      split_ifs with hcount
      · constructor
        · intro h
          cases h
        · rintro ⟨_, _, _, _, hinteger, hlarge⟩
          rw [hinteger, hlarge] at hcount
          cases hcount
      · simp only [Bool.or_eq_true, Bool.not_eq_true', not_or, Bool.not_eq_false,
          Bool.not_eq_true] at hcount
        exact ⟨fun _ => ⟨hid, hamounts.1, hamounts.2, hbps, hcount⟩, fun _ => rfl⟩

theorem scoreRoute_ok {route : ScoredRoute} :
    scoreRoute override planner.policy = .ok route ↔
      validateRoute override = .ok () ∧ isRouteEligible override planner.policy = true ∧
        route = scored override planner.policy := by
  rw [scoreRoute, planner.valid_policy, ok_bind]
  constructor
  · intro h
    obtain ⟨_, hvalid, h⟩ := bind_eq_ok.mp h
    split_ifs at h with heligible
    · cases h
    · cases h
      exact ⟨hvalid, by simpa using heligible, rfl⟩
  · rintro ⟨hvalid, heligible, rfl⟩
    rw [hvalid, ok_bind, if_neg (by rw [heligible]; decide)]
    rfl

theorem finishQuote_ok {route : ScoredRoute} {quotedAtLedger tolerance : Number} :
    (∃ quote, planner.finishQuote route quotedAtLedger tolerance = .ok quote) ↔
      Number.lt 0xffffffff (quotedAtLedger.add planner.quoteValidityLedgers) = false := by
  unfold finishQuote
  dsimp only
  split_ifs with hlate
  · simp [hlate, stellarAgentError]
  · exact ⟨fun _ => Bool.not_eq_true _ ▸ hlate, fun _ => ⟨_, rfl⟩⟩

theorem mapError_ok {A E F : Type} {f : E → F} {x : Except E A} {a : A} :
    x.mapError f = .ok a ↔ x = .ok a := by
  cases x with
  | error e => simp [Except.mapError]
  | ok b => simp [Except.mapError]

/-- **An override is accepted exactly if it passes the checks of its summary.** -/
theorem quoteOverride_accepts_iff :
    (∃ quote, planner.quoteOverride request override = .ok quote) ↔
      planner.Passes request override := by
  unfold quoteOverride
  dsimp only
  constructor
  · rintro ⟨quote, h⟩
    split_ifs at h with hmismatch hexpired
    · cases h
    · cases h
    obtain ⟨tolerance, htolerance, h⟩ := bind_eq_ok.mp h
    obtain ⟨route, hroute, hfinish⟩ := bind_eq_ok.mp (mapError_ok.mp h)
    obtain ⟨hvalid, heligible, _⟩ := scoreRoute_ok.mp hroute
    obtain ⟨hid, hsource, houtput, hbps, hcount⟩ := validateRoute_ok.mp hvalid
    simp only [not_or, not_not] at hmismatch
    exact ⟨hmismatch.1, hmismatch.2.1, hmismatch.2.2, Bool.not_eq_true _ ▸ hexpired,
      (basisPoints_ok.mp htolerance).1, hid, hsource, houtput, hbps, hcount, heligible,
      finishQuote_ok.mp ⟨quote, hfinish⟩⟩
  · intro h
    have hmatch : ¬ (override.sourceAsset ≠ request.sourceAsset ∨
        override.destinationAsset ≠ request.destinationAsset ∨
        override.sourceAmount ≠ request.sourceAmount) := by
      simp [h.sourceAsset, h.destinationAsset, h.sourceAmount]
    have hvalid : validateRoute override = .ok () := validateRoute_ok.mpr
      ⟨h.id, h.positive_source, h.positive_output, h.bps, h.hopCount⟩
    have hroute := scoreRoute_ok.mpr ⟨hvalid, h.eligible, rfl⟩
    obtain ⟨quote, hquote⟩ : ∃ quote, planner.finishQuote (scored override planner.policy)
        (request.currentLedger.getD 0)
        (request.slippageToleranceBps.getD planner.defaultSlippageToleranceBps) = .ok quote :=
      finishQuote_ok.mpr h.lifetime
    refine ⟨quote, ?_⟩
    rw [if_neg hmatch, if_neg (by rw [h.fresh]; decide), basisPoints_ok.mpr ⟨h.tolerance, rfl⟩,
      ok_bind, mapError_ok, hroute, ok_bind, hquote]

/-- The hops make no difference. -/
theorem quoteOverride_ignores_hops (hops : List RouteHop) :
    (∃ quote, planner.quoteOverride request { override with hops } = .ok quote) ↔
      ∃ quote, planner.quoteOverride request override = .ok quote := by
  rw [quoteOverride_accepts_iff, quoteOverride_accepts_iff]
  exact ⟨fun h => { h with }, fun h => { h with }⟩

end RoutePlanner

/-! ## Safety -/

/-- The fields that are scored, and from which the minimum is derived -/
def SameSummary (quote override : RouteQuote) : Prop :=
  override.expectedDestinationAmount = quote.expectedDestinationAmount ∧
    override.totalFeeBps = quote.totalFeeBps ∧
    override.expectedSlippageBps = quote.expectedSlippageBps ∧
    override.reliabilityBps = quote.reliabilityBps ∧ override.hopCount = quote.hopCount

/-- The summary is the quote's, possibly after discovery has adjusted it to an oracle. -/
def Describes (quote override : RouteQuote) : Prop :=
  SameSummary quote override ∨
    ∃ reference adjusted, reference.reliabilityBps.isIntegerIn 0 10000 = true ∧
      applyOracleReference quote reference = .ok adjusted ∧ SameSummary adjusted override

/-- What discovery promises of a route: its hops are admitted, and its summary is theirs. -/
def Safe (planner : RoutePlanner) (request : PaymentQuoteRequest) (override : RouteQuote) : Prop :=
  ∃ quote, normalizeRoute request.toRouteRequest override.hops planner.hopLimit = .ok quote ∧
    Describes quote override

/-- **An override is as safe as a discovered route** exactly if it is refused by the checks of its
summary, or its hops are a route that discovery admits and its summary is the one they give. -/
theorem override_safe_iff (planner : RoutePlanner) (request : PaymentQuoteRequest)
    (override : RouteQuote) :
    (∀ quote, planner.quoteOverride request override = .ok quote →
        Safe planner request override) ↔
      ¬ planner.Passes request override ∨
        Admissible request.toRouteRequest override.hops planner.hopLimit ∧
          Describes (quoteOf request.toRouteRequest override.hops) override := by
  have hsafe : Safe planner request override ↔
      Admissible request.toRouteRequest override.hops planner.hopLimit ∧
        Describes (quoteOf request.toRouteRequest override.hops) override := by
    constructor
    · rintro ⟨quote, hquote, hdescribes⟩
      obtain ⟨hadmissible, rfl⟩ := normalizeRoute_ok_iff.mp hquote
      exact ⟨hadmissible, hdescribes⟩
    · rintro ⟨hadmissible, hdescribes⟩
      exact ⟨_, normalizeRoute_ok_iff.mpr ⟨hadmissible, rfl⟩, hdescribes⟩
  rw [← RoutePlanner.quoteOverride_accepts_iff, ← hsafe]
  constructor
  · intro h
    by_cases haccepted : ∃ quote, planner.quoteOverride request override = .ok quote
    · obtain ⟨quote, hquote⟩ := haccepted
      exact Or.inr (h quote hquote)
    · exact Or.inl haccepted
  · rintro (hrefused | hsafe) quote hquote
    · exact absurd ⟨quote, hquote⟩ hrefused
    · exact hsafe

section

def samplePlanner : RoutePlanner where
  maxHops := none
  policy := DEFAULT_ROUTING_POLICY
  quoteValidityLedgers := 20
  defaultSlippageToleranceBps := 100
  valid_policy := by decide +kernel
  valid_lifetime := by decide +kernel
  valid_tolerance := by decide +kernel

def sampleRequest : PaymentQuoteRequest where
  sourceAsset := "XLM"
  destinationAsset := "USDC"
  sourceAmount := "100000000"
  currentLedger := some 100
  allowedIntermediates := none
  slippageToleranceBps := none

/-- A summary that promises an output, without any hop that yields it -/
def emptyOverride : RouteQuote where
  id := "XLM>amm:CAMM>USDC"
  sourceAsset := "XLM"
  destinationAsset := "USDC"
  sourceAmount := "100000000"
  expectedDestinationAmount := "20000000"
  totalFeeBps := 30
  expectedSlippageBps := 20
  reliabilityBps := 9500
  hopCount := 1
  hops := []
  expiresAtLedger := none

/-- An override without hops is accepted. -/
theorem empty_override_accepted : ¬ ∀ (planner : RoutePlanner) (request : PaymentQuoteRequest)
    (override : RouteQuote) (quote : PaymentQuote),
    planner.quoteOverride request override = .ok quote → Safe planner request override := by
  have haccepted : ((samplePlanner.quoteOverride sampleRequest emptyOverride).toOption.map
      fun quote => quote.minimumDestinationAmount) = some "19800000" := by
    decide +kernel
  intro h
  cases hquote : samplePlanner.quoteOverride sampleRequest emptyOverride with
  | error e =>
      rw [hquote] at haccepted
      cases haccepted
  | ok quote =>
      obtain ⟨normalized, hnormalized, _⟩ := h samplePlanner sampleRequest emptyOverride quote hquote
      exact (normalizeRoute_ok_iff.mp hnormalized).1.nonempty rfl

end

end StellarAgent.Routing
