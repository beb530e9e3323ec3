import StellarAgent.Lib.BestPerKey
import StellarAgent.Routing.Ranking

set_option autoImplicit false

/-! # Discovering routes

`discoverRoutes` of `packages/core/src/routing/discovery.ts`: every provider is asked, what it
returns is cut to `maxCandidates` lists of hops and normalised, the quotes are adjusted to the
oracle, of quotes with one id the best is kept, and what has not expired is sorted by id and cut
again. Among equally good quotes of one id the first provider's is kept, and a provider's list is cut
before its ids are known. `discovery_settled_iff` says when neither shows.
-/

namespace StellarAgent.Routing

open Lib

/-! ## Providers and oracles -/

/-- Venue adapter -/
structure RouteProvider where
  id : String
  discover : RouteRequest → RouteProviderContext → Except Thrown (List (List RouteHop))

/-- Optional independent fair-value source -/
structure RoutePriceOracle where
  id : String
  quote : RouteRequest → Except Thrown (Option OracleReference)

structure RouteDiscoveryOptions where
  providers : List RouteProvider
  oracle : Option RoutePriceOracle
  maxHops : Option Number
  maxCandidates : Option Number

structure RouteDiscoveryFailure where
  providerId : String
  code : RouteUnavailableCode
  message : String

structure RouteDiscoveryResult where
  routes : List RouteQuote
  failures : List RouteDiscoveryFailure
  oracleReference : Option OracleReference

def validateRequest (request : RouteRequest) : Except Thrown Unit := do
  if isBlank request.sourceAsset || isBlank request.destinationAsset then
    stellarAgentError "INVALID_ARGUMENT" "sourceAsset and destinationAsset are required"
  else
    let _ ← parsePositiveInteger request.sourceAmount "sourceAmount"
    if request.currentLedger.any fun ledger => !ledger.isInteger || ledger.lt 0 then
      stellarAgentError "INVALID_ARGUMENT" "currentLedger must be a non-negative integer"
    else if request.allowedIntermediates.any fun allowed => !decide allowed.Nodup then
      stellarAgentError "INVALID_ARGUMENT" "allowedIntermediates contains duplicates"
    else return ()

def messageOf : Thrown → String
  | .RouteUnavailable _ message => message
  | .StellarAgent _ message _ => message
  | .Range message => message

def failureFrom (providerId : String) (reason : Thrown) (fallback : RouteUnavailableCode) :
    RouteDiscoveryFailure where
  providerId
  code := match reason with
    | .RouteUnavailable code _ => code
    | _ => fallback
  message := messageOf reason

/-! ## The loop over the providers -/

section

variable (request : RouteRequest) (maxHops : Number) (maxCandidates : ℕ)

/-- The lists of hops of one provider: the quotes, and the failures -/
def normalizeAll (providerId : String) :
    List (List RouteHop) → List RouteQuote × List RouteDiscoveryFailure
  | [] => ([], [])
  | hops :: rest =>
      let (candidates, failures) := normalizeAll providerId rest
      match normalizeRoute request hops maxHops with
      | .ok route => (route :: candidates, failures)
      | .error reason => (candidates, failureFrom providerId reason .INVALID_QUOTE :: failures)

def collect : List RouteProvider → List RouteQuote × List RouteDiscoveryFailure
  | [] => ([], [])
  | provider :: rest =>
      let (candidates, failures) := collect rest
      match provider.discover request ⟨maxHops.toInt.toNat, maxCandidates⟩ with
      | .error reason =>
          (candidates, failureFrom provider.id reason .VENUE_UNAVAILABLE :: failures)
      | .ok returned =>
          let (own, ownFailures) := normalizeAll request maxHops provider.id
            (returned.take maxCandidates)
          (own ++ candidates, ownFailures ++ failures)

/-- The checks of `loadOracleReference` -/
def checkReference (reference : OracleReference) : Except Thrown Unit := do
  let _ ← parsePositiveInteger reference.expectedDestinationAmount
    "oracle expectedDestinationAmount"
  assertBps reference.reliabilityBps "oracle reliabilityBps"

def loadOracleReference (oracle : Option RoutePriceOracle) :
    Option OracleReference × List RouteDiscoveryFailure :=
  match oracle with
  | none => (none, [])
  | some oracle =>
      match oracle.quote request with
      | .error reason => (none, [failureFrom oracle.id reason .VENUE_UNAVAILABLE])
      | .ok none => (none, [])
      | .ok (some reference) =>
          match checkReference reference with
          | .error reason => (none, [failureFrom oracle.id reason .VENUE_UNAVAILABLE])
          | .ok () => (some reference, [])

end

/-! ## The choice among the quotes -/

/-- Negative where the first is better -/
def compareQuoteQuality (a b : RouteQuote) : Ordering :=
  let outputA := amountOf a.expectedDestinationAmount
  let outputB := amountOf b.expectedDestinationAmount
  if outputA ≠ outputB then (if outputA > outputB then .lt else .gt)
  else if a.totalFeeBps ≠ b.totalFeeBps then compareNumbers a.totalFeeBps b.totalFeeBps
  else compareNumbers a.expectedSlippageBps b.expectedSlippageBps

/-- The body of the loop that fills `unique` -/
def retain (unique : List RouteQuote) (route : RouteQuote) : List RouteQuote :=
  match lookup RouteQuote.id unique route.id with
  | none => upsert RouteQuote.id route unique
  | some previous =>
      if compareQuoteQuality route previous = .lt then upsert RouteQuote.id route unique else unique

def isUnexpired (request : RouteRequest) (route : RouteQuote) : Bool :=
  match route.expiresAtLedger, request.currentLedger with
  | some expires, some current => current.le expires
  | _, _ => true

def applyAll (reference : OracleReference) : List RouteQuote → Except Thrown (List RouteQuote)
  | [] => .ok []
  | route :: rest => do
      let adjusted ← applyOracleReference route reference
      let others ← applyAll reference rest
      return adjusted :: others

/-- The quotes as they are where there is no reference -/
def applyReference (reference : Option OracleReference) (candidates : List RouteQuote) :
    Except Thrown (List RouteQuote) :=
  match reference with
  | some reference => applyAll reference candidates
  | none => .ok candidates

def discoverRoutes (request : RouteRequest) (options : RouteDiscoveryOptions) :
    Except Thrown RouteDiscoveryResult := do
  validateRequest request
  let maxHops ← positiveInteger (options.maxHops.getD 3) "maxHops"
  let maxCandidates ← positiveInteger (options.maxCandidates.getD 32) "maxCandidates"
  let limit := maxCandidates.toInt.toNat
  if options.providers = [] then return ⟨[], [], none⟩
  else
    let (candidates, failures) := collect request maxHops limit options.providers
    let (reference, oracleFailures) := loadOracleReference request options.oracle
    let normalized ← applyReference reference candidates
    let unique := normalized.foldl retain []
    let routes := ((unique.filter (isUnexpired request)).insertionSort
      fun a b => compareUtf8 a.id b.id ≠ .gt).take limit
    return ⟨routes, failures ++ oracleFailures, reference⟩

/-! ## Finite numbers -/

/-- What a finite number is -/
def Number.value : Number → ℚ
  | .finite q => q
  | _ => 0

def Number.IsFinite (a : Number) : Prop := a = .finite a.value

section

variable {a b : Number}

theorem Number.isFinite_finite (q : ℚ) : (Number.finite q).IsFinite := rfl

theorem Number.IsFinite.add (ha : a.IsFinite) (hb : b.IsFinite) : (a.add b).IsFinite := by
  rw [ha, hb]
  rfl

theorem Number.IsFinite.min (ha : a.IsFinite) (hb : b.IsFinite) : (a.min b).IsFinite := by
  unfold Number.min
  split_ifs with hnan
  · rw [ha, hb] at hnan
    simp at hnan
  · exact ha
  · exact hb

theorem Number.IsFinite.max (ha : a.IsFinite) (hb : b.IsFinite) : (a.max b).IsFinite := by
  unfold Number.max
  split_ifs with hnan
  · rw [ha, hb] at hnan
    simp at hnan
  · exact hb
  · exact ha

theorem Number.isFinite_of_isIntegerIn {lowest largest : Number}
    (h : a.isIntegerIn lowest largest = true) : a.IsFinite := by
  unfold Number.isIntegerIn at h
  simp only [Bool.and_eq_true] at h
  have hinteger := h.1.1
  cases a with
  | finite q => rfl
  | infinite negative => cases hinteger
  | nan => cases hinteger

theorem compareNumbers_lt_iff (ha : a.IsFinite) (hb : b.IsFinite) :
    compareNumbers a b = .lt ↔ a.value < b.value := by
  obtain ⟨x, rfl⟩ : ∃ x, a = .finite x := ⟨_, ha⟩
  obtain ⟨y, rfl⟩ : ∃ y, b = .finite y := ⟨_, hb⟩
  show compareNumbers (.finite x) (.finite y) = .lt ↔ x < y
  unfold compareNumbers Number.lt
  by_cases hlt : x < y
  · simp [hlt]
  · by_cases hgt : y < x <;> simp [hlt, hgt]

end

/-! ## The quality of a quote -/

/-- Output first, then fee and slippage; the best is the least. -/
def quality (route : RouteQuote) : ℤ ×ₗ ℚ ×ₗ ℚ :=
  toLex (-(amountOf route.expectedDestinationAmount : ℤ),
    toLex (route.totalFeeBps.value, route.expectedSlippageBps.value))

/-- Fee and slippage are numbers that can be compared. -/
structure Graded (route : RouteQuote) : Prop where
  fee : route.totalFeeBps.IsFinite
  slippage : route.expectedSlippageBps.IsFinite

theorem compareQuoteQuality_lt_iff {a b : RouteQuote} (ha : Graded a) (hb : Graded b) :
    compareQuoteQuality a b = .lt ↔ quality a < quality b := by
  have hfee : a.totalFeeBps = b.totalFeeBps ↔ a.totalFeeBps.value = b.totalFeeBps.value := by
    refine ⟨congrArg _, fun h => ?_⟩
    rw [ha.fee, hb.fee, h]
  unfold compareQuoteQuality quality
  dsimp only
  rw [Prod.Lex.toLex_lt_toLex, Prod.Lex.toLex_lt_toLex]
  by_cases houtput : amountOf a.expectedDestinationAmount = amountOf b.expectedDestinationAmount
  · rw [if_neg (not_not.mpr houtput), houtput]
    by_cases hsame : a.totalFeeBps = b.totalFeeBps
    · rw [if_neg (not_not.mpr hsame), compareNumbers_lt_iff ha.slippage hb.slippage,
        hfee.mp hsame]
      simp
    · rw [if_pos hsame, compareNumbers_lt_iff ha.fee hb.fee]
      have hne : a.totalFeeBps.value ≠ b.totalFeeBps.value := fun heq => hsame (hfee.mpr heq)
      simp [hne]
  · rw [if_pos houtput]
    split_ifs with hgt
    · simp [hgt]
    · have hne : ¬ -(amountOf a.expectedDestinationAmount : ℤ) =
          -(amountOf b.expectedDestinationAmount : ℤ) := by omega
      have hnlt : ¬ -(amountOf a.expectedDestinationAmount : ℤ) <
          -(amountOf b.expectedDestinationAmount : ℤ) := by omega
      simp [hne, hnlt]

/-- **The loop keeps the best quote of each id.** -/
theorem retain_eq {routes : List RouteQuote} (h : ∀ route ∈ routes, Graded route) :
    routes.foldl retain [] = keepBestAll RouteQuote.id quality routes := by
  induction routes using List.reverseRecOn with
  | nil => rfl
  | append_singleton routes route ih =>
      have ih := ih fun other hother => h other (List.mem_append_left _ hother)
      have hlookup : ∀ previous,
          lookup RouteQuote.id (keepBestAll RouteQuote.id quality routes) route.id =
            some previous → Graded previous := by
        intro previous hprevious
        rw [lookup_keepBestAll] at hprevious
        have hmem := List.mem_of_mem_filter (List.argmin_mem hprevious)
        exact h previous (List.mem_append_left _ hmem)
      rw [keepBestAll, List.foldl_append, List.foldl_append, ih, List.foldl_cons, List.foldl_nil,
        List.foldl_cons, List.foldl_nil]
      show retain (keepBestAll RouteQuote.id quality routes) route =
        keepBest RouteQuote.id quality (keepBestAll RouteQuote.id quality routes) route
      unfold retain keepBest
      cases hprevious : lookup RouteQuote.id (keepBestAll RouteQuote.id quality routes)
          route.id with
      | none => rfl
      | some previous =>
          dsimp only
          simp only [compareQuoteQuality_lt_iff (h route (by simp)) (hlookup previous hprevious)]

/-! ## Normalised quotes -/

theorem head_toDigits {n : ℕ} (h : 0 < n) :
    ∃ first rest, Nat.toDigits 10 n = first :: rest ∧ first ≠ '0' := by
  induction n using Nat.strong_induction_on with
  | _ n ih =>
      by_cases hsmall : n < 10
      · refine ⟨n.digitChar, [], Nat.toDigits_of_lt_base hsmall, ?_⟩
        interval_cases n <;> decide
      · obtain ⟨first, rest, heq, hne⟩ := ih (n / 10) (by omega) (by omega)
        refine ⟨first, rest ++ [(n % 10).digitChar], ?_, hne⟩
        rw [Nat.toDigits_of_base_le (by omega) (by omega), heq]
        rfl

theorem isAmount_toString {n : ℕ} (h : n ≠ 0) : IsAmount (toString n) := by
  have hchars : (toString n).toList = Nat.toDigits 10 n := by simp
  have hdigits : ∀ c ∈ Nat.toDigits 10 n, c.isDigit = true :=
    fun c hc => Nat.isDigit_of_mem_toDigits (by omega) (by omega) hc
  constructor
  · obtain ⟨first, rest, heq, hne⟩ := head_toDigits (Nat.pos_of_ne_zero h)
    rw [heq] at hdigits
    unfold isCanonical
    rw [hchars, heq]
    split
    · rename_i hnil
      cases hnil
    · rfl
    · rename_i hcons
      cases hcons
      simp only [Bool.and_eq_true, bne_iff_ne, List.all_eq_true]
      exact ⟨hne, hdigits⟩
  · rw [amountOf, hchars, Nat.ofDigitChars_ten_toDigits]
    exact h

theorem isFinite_foldl {hops : List RouteHop} {bps : RouteHop → Number} {total : Number}
    (htotal : total.IsFinite) (h : ∀ hop ∈ hops, (bps hop).IsFinite) :
    (hops.foldl (fun total hop => Number.min 10000 (total.add (bps hop))) total).IsFinite := by
  induction hops generalizing total with
  | nil => exact htotal
  | cons hop hops ih =>
      refine ih ?_ fun other hother => h other (List.mem_cons_of_mem hop hother)
      exact (Number.isFinite_finite 10000).min (htotal.add (h hop List.mem_cons_self))

/-- The last output of a chain of hops is an amount. -/
theorem output_ne_zero {hops : List RouteHop} {asset : String} {amount start : ℕ}
    (h : Continuous asset amount hops) (hstart : start ≠ 0) :
    hops.foldl (fun _ hop => amountOf hop.expectedOutput) start ≠ 0 := by
  induction hops generalizing asset amount start with
  | nil => exact hstart
  | cons hop hops ih =>
      obtain ⟨-, -, -, houtput, hrest⟩ := h
      exact ih hrest houtput.2

/-- What a normalised quote is like before the oracle is asked -/
structure Fresh (route : RouteQuote) : Prop extends Graded route where
  output : IsAmount route.expectedDestinationAmount
  expiresAtLedger : route.expiresAtLedger = none

theorem Fresh.of_ok {request : RouteRequest} {hops : List RouteHop} {maxHops : Number}
    {route : RouteQuote} (h : normalizeRoute request hops maxHops = .ok route) : Fresh route := by
  obtain ⟨hadmissible, rfl⟩ := normalizeRoute_ok_iff.mp h
  refine { fee := ?_, slippage := ?_, output := ?_, expiresAtLedger := rfl }
  · exact isFinite_foldl (Number.isFinite_finite 0) fun hop hhop =>
      Number.isFinite_of_isIntegerIn (hadmissible.valid hop hhop).feeBps
  · exact isFinite_foldl (Number.isFinite_finite 0) fun hop hhop =>
      Number.isFinite_of_isIntegerIn (hadmissible.valid hop hhop).slippageBps
  · exact isAmount_toString (output_ne_zero hadmissible.continuous hadmissible.amount.2)

/-! ## Adjusted quotes -/

/-- A quote after the oracle's adjustment, if there is a reference -/
def adjust (reference : Option OracleReference) (route : RouteQuote) : RouteQuote :=
  match reference with
  | none => route
  | some reference => ((applyOracleReference route reference).toOption).getD route

theorem applyOracleReference_ok {route : RouteQuote} {reference : OracleReference}
    (hreference : IsAmount reference.expectedDestinationAmount) (hroute : Fresh route) :
    applyOracleReference route reference = .ok (adjust (some reference) route) ∧
      Graded (adjust (some reference) route) ∧
      (adjust (some reference) route).expiresAtLedger = reference.expiresAtLedger := by
  have hfair : parsePositiveInteger reference.expectedDestinationAmount
      "oracle expectedDestinationAmount" = .ok (amountOf reference.expectedDestinationAmount) :=
    parsePositiveInteger_ok.mpr ⟨hreference, rfl⟩
  have hactual : parsePositiveInteger route.expectedDestinationAmount
      "expectedDestinationAmount" = .ok (amountOf route.expectedDestinationAmount) :=
    parsePositiveInteger_ok.mpr ⟨hroute.output, rfl⟩
  unfold adjust applyOracleReference
  dsimp only
  rw [hfair, ok_bind, hactual, ok_bind]
  refine ⟨rfl, ⟨hroute.fee, ?_⟩, ?_⟩
  · exact hroute.slippage.max (Number.isFinite_finite _)
  · rw [hroute.expiresAtLedger]
    cases reference.expiresAtLedger with
    | none => rfl
    | some expires => rfl

theorem applyAll_ok {reference : OracleReference} {routes : List RouteQuote}
    (hreference : IsAmount reference.expectedDestinationAmount)
    (hroutes : ∀ route ∈ routes, Fresh route) :
    applyAll reference routes = .ok (routes.map (adjust (some reference))) := by
  induction routes with
  | nil => rfl
  | cons route rest ih =>
      have hrest := ih fun other hother => hroutes other (List.mem_cons_of_mem route hother)
      rw [applyAll, (applyOracleReference_ok hreference (hroutes route List.mem_cons_self)).1,
        ok_bind, hrest, ok_bind]
      rfl

theorem loadOracleReference_isAmount {request : RouteRequest} {oracle : Option RoutePriceOracle}
    {reference : OracleReference} (h : (loadOracleReference request oracle).1 = some reference) :
    IsAmount reference.expectedDestinationAmount := by
  unfold loadOracleReference at h
  split at h
  · cases h
  · split at h
    · cases h
    · cases h
    · split at h
      · cases h
      · rename_i hcheck
        cases h
        obtain ⟨_, hamount, -⟩ := bind_eq_ok.mp hcheck
        exact (parsePositiveInteger_ok.mp hamount).1

/-! ## What the providers offer -/

section

variable (request : RouteRequest) (maxHops : Number) (maxCandidates : ℕ)
  (reference : Option OracleReference) (provider : RouteProvider)

/-- The lists of hops that a provider returns; none if it fails -/
def returned : List (List RouteHop) :=
  ((provider.discover request ⟨maxHops.toInt.toNat, maxCandidates⟩).toOption).getD []

/-- The quotes of lists of hops that normalise, adjusted and unexpired -/
def usable (hopLists : List (List RouteHop)) : List RouteQuote :=
  ((hopLists.filterMap fun hops => (normalizeRoute request hops maxHops).toOption).map
    (adjust reference)).filter (isUnexpired request)

/-- The usable quotes among the first `maxCandidates` of a provider -/
def offers : List RouteQuote :=
  usable request maxHops reference ((returned request maxHops maxCandidates provider).take
    maxCandidates)

end

section

variable {request : RouteRequest} {maxHops : Number} {maxCandidates : ℕ}
  {reference : Option OracleReference} {providers : List RouteProvider}

theorem normalizeAll_fst (providerId : String) (hopLists : List (List RouteHop)) :
    (normalizeAll request maxHops providerId hopLists).1 =
      hopLists.filterMap fun hops => (normalizeRoute request hops maxHops).toOption := by
  induction hopLists with
  | nil => rfl
  | cons hops rest ih =>
      rw [normalizeAll, List.filterMap_cons]
      cases hquote : normalizeRoute request hops maxHops with
      | ok route => simp [Except.toOption, ih]
      | error reason => simp [Except.toOption, ih]

theorem collect_fst :
    (collect request maxHops maxCandidates providers).1 =
      (providers.map fun provider =>
        ((returned request maxHops maxCandidates provider).take maxCandidates).filterMap
          fun hops => (normalizeRoute request hops maxHops).toOption).flatten := by
  induction providers with
  | nil => rfl
  | cons provider rest ih =>
      rw [collect, List.map_cons, List.flatten_cons, ← ih, returned]
      cases hdiscover : provider.discover request ⟨maxHops.toInt.toNat, maxCandidates⟩ with
      | error reason => simp [Except.toOption]
      | ok found => simp [Except.toOption, normalizeAll_fst]

theorem fresh_collect : ∀ route ∈ (collect request maxHops maxCandidates providers).1,
    Fresh route := by
  intro route hroute
  rw [collect_fst] at hroute
  obtain ⟨own, hown, hroute⟩ := List.mem_flatten.mp hroute
  obtain ⟨provider, -, rfl⟩ := List.mem_map.mp hown
  obtain ⟨hops, -, hquote⟩ := List.mem_filterMap.mp hroute
  exact Fresh.of_ok (toOption_eq_some.mp hquote)

/-- The quotes that go into the choice -/
def adjusted (request : RouteRequest) (maxHops : Number) (maxCandidates : ℕ)
    (reference : Option OracleReference) (providers : List RouteProvider) : List RouteQuote :=
  (collect request maxHops maxCandidates providers).1.map (adjust reference)

theorem offers_flatten :
    (providers.map (offers request maxHops maxCandidates reference)).flatten =
      (adjusted request maxHops maxCandidates reference providers).filter
        (isUnexpired request) := by
  rw [adjusted, collect_fst, List.map_flatten, List.filter_flatten, List.map_map, List.map_map]
  rfl

/-- Only the oracle lets a quote expire, so all expire together. -/
theorem adjusted_uniform
    (hreference : ∀ r, reference = some r → IsAmount r.expectedDestinationAmount) :
    ∀ route ∈ adjusted request maxHops maxCandidates reference providers,
      Graded route ∧ route.expiresAtLedger = reference.bind OracleReference.expiresAtLedger := by
  intro route hroute
  obtain ⟨fresh, hfresh, rfl⟩ := List.mem_map.mp hroute
  have hquote := fresh_collect fresh hfresh
  cases hcase : reference with
  | none => exact ⟨hquote.toGraded, hquote.expiresAtLedger⟩
  | some r => exact (applyOracleReference_ok (hreference r hcase) hquote).2

/-- What is unexpired among quotes that expire together is all or nothing. -/
theorem filter_keepBestAll {expires : Option Number} {routes : List RouteQuote}
    (h : ∀ route ∈ routes, route.expiresAtLedger = expires) :
    (keepBestAll RouteQuote.id quality routes).filter (isUnexpired request) =
      keepBestAll RouteQuote.id quality (routes.filter (isUnexpired request)) := by
  have hmem : ∀ route ∈ keepBestAll RouteQuote.id quality routes, route ∈ routes :=
    fun route hroute => List.mem_of_mem_filter (List.argmin_mem (mem_keepBestAll.mp hroute))
  have hsame : ∀ route ∈ routes, ∀ other ∈ routes,
      isUnexpired request route = isUnexpired request other := by
    intro route hroute other hother
    rw [isUnexpired, isUnexpired, h route hroute, h other hother]
  by_cases hany : ∃ route ∈ routes, isUnexpired request route = true
  · obtain ⟨route, hroute, hlive⟩ := hany
    have hall : ∀ other ∈ routes, isUnexpired request other = true :=
      fun other hother => hsame other hother route hroute ▸ hlive
    rw [List.filter_eq_self.mpr hall,
      List.filter_eq_self.mpr fun other hother => hall other (hmem other hother)]
  · have hnone : ∀ other ∈ routes, ¬ isUnexpired request other = true :=
      fun other hother hlive => hany ⟨other, hother, hlive⟩
    rw [List.filter_eq_nil_iff.mpr hnone,
      List.filter_eq_nil_iff.mpr fun other hother => hnone other (hmem other hother)]
    rfl

/-- **What discovery returns is the shortlist of what the providers offer.** -/
theorem discoverRoutes_routes {options : RouteDiscoveryOptions} {candidates : Number}
    (hrequest : validateRequest request = .ok ())
    (hhops : positiveInteger (options.maxHops.getD 3) "maxHops" = .ok maxHops)
    (hcandidates : positiveInteger (options.maxCandidates.getD 32) "maxCandidates" =
      .ok candidates) :
    ∃ result, discoverRoutes request options = .ok result ∧
      result.routes = shortlist RouteQuote.id quality utf8 candidates.toInt.toNat
        (options.providers.map (offers request maxHops candidates.toInt.toNat
          (loadOracleReference request options.oracle).1)).flatten := by
  unfold discoverRoutes
  rw [hrequest, ok_bind, hhops, ok_bind, hcandidates, ok_bind]
  dsimp only
  by_cases hempty : options.providers = []
  · rw [if_pos hempty, hempty]
    exact ⟨_, rfl, shortlist_nil.symm⟩
  rw [if_neg hempty]
  have hreference : ∀ r, (loadOracleReference request options.oracle).1 = some r →
      IsAmount r.expectedDestinationAmount := fun r => loadOracleReference_isAmount
  have huniform : ∀ route ∈ adjusted request maxHops candidates.toInt.toNat
      (loadOracleReference request options.oracle).1 options.providers,
      Graded route ∧ route.expiresAtLedger =
        (loadOracleReference request options.oracle).1.bind OracleReference.expiresAtLedger :=
    adjusted_uniform hreference
  rw [offers_flatten]
  generalize (loadOracleReference request options.oracle).1 = reference at *
  have hnormalized : applyReference reference
      (collect request maxHops candidates.toInt.toNat options.providers).1 =
      .ok (adjusted request maxHops candidates.toInt.toNat reference options.providers) := by
    cases reference with
    | none => exact congrArg Except.ok (List.map_id _).symm
    | some r => exact applyAll_ok (hreference r rfl) fresh_collect
  rw [hnormalized, ok_bind]
  refine ⟨_, rfl, ?_⟩
  dsimp only
  rw [retain_eq fun route hroute => (huniform route hroute).1,
    filter_keepBestAll fun route hroute => (huniform route hroute).2]
  have hsort : ∀ routes : List RouteQuote,
      routes.insertionSort (fun a b => compareUtf8 a.id b.id ≠ .gt) =
        routes.insertionSort fun a b => utf8 a.id ≤ utf8 b.id :=
    fun routes => insertionSort_congr
      (List.pairwise_of_forall fun a b => compareUtf8_le_iff)
  rw [hsort]
  rfl

end

/-! ## When the order of the providers and the cuts do not show -/

/-- The `routes` of the result -/
def discovered (request : RouteRequest) (options : RouteDiscoveryOptions) :
    Except Thrown (List RouteQuote) :=
  (discoverRoutes request options).map RouteDiscoveryResult.routes

section

variable (request : RouteRequest) (maxHops : Number) (maxCandidates : ℕ)
  (reference : Option OracleReference) (providers : List RouteProvider)

/-- The ids of everything usable that the providers return -/
def usableIds : Finset String :=
  ((providers.flatMap fun provider => usable request maxHops reference
    (returned request maxHops maxCandidates provider)).map RouteQuote.id).toFinset

/-- The ids of what is left after each provider is cut -/
def offeredIds : Finset String :=
  ((providers.map (offers request maxHops maxCandidates reference)).flatten.map
    RouteQuote.id).toFinset

/-- Nothing turns on the order of the providers or on what a provider lists late. -/
structure Settled : Prop where
  /-- Providers whose best quote of an id is as good as any have the same quote of it. -/
  agree : ∀ id, AmongSmallest utf8 maxCandidates
    (offeredIds request maxHops maxCandidates reference providers) id →
      AgreeOn RouteQuote.id quality (providers.map (offers request maxHops maxCandidates reference))
        id
  /-- An id that is among the smallest is within some provider's first candidates. -/
  early : ∀ id, AmongSmallest utf8 maxCandidates
    (usableIds request maxHops maxCandidates reference providers) id →
      id ∈ offeredIds request maxHops maxCandidates reference providers

end

theorem utf8_injective : Function.Injective utf8 := fun _ _ => utf8_inj

section

variable {request : RouteRequest} {maxHops : Number} {maxCandidates : ℕ}
  {reference : Option OracleReference} {providers : List RouteProvider}

theorem usable_take_subset {hopLists : List (List RouteHop)} {n : ℕ} {route : RouteQuote}
    (h : route ∈ usable request maxHops reference (hopLists.take n)) :
    route ∈ usable request maxHops reference hopLists := by
  have hsub := ((((List.take_sublist n hopLists).filterMap
    fun hops => (normalizeRoute request hops maxHops).toOption).map
      (adjust reference)).filter (isUnexpired request))
  exact hsub.subset h

theorem mem_usable_singleton {hopLists : List (List RouteHop)} {route : RouteQuote} :
    route ∈ usable request maxHops reference hopLists ↔
      ∃ hops ∈ hopLists, route ∈ usable request maxHops reference [hops] := by
  simp only [usable, List.mem_filter, List.mem_map, List.mem_filterMap, List.mem_singleton]
  constructor
  · rintro ⟨⟨fresh, ⟨hops, hhops, hquote⟩, heq⟩, hlive⟩
    exact ⟨hops, hhops, ⟨fresh, ⟨hops, rfl, hquote⟩, heq⟩, hlive⟩
  · rintro ⟨hops, hhops, ⟨fresh, ⟨_, rfl, hquote⟩, heq⟩, hlive⟩
    exact ⟨⟨fresh, ⟨_, hhops, hquote⟩, heq⟩, hlive⟩

theorem mem_usableIds {id : String} :
    id ∈ usableIds request maxHops maxCandidates reference providers ↔
      ∃ provider ∈ providers, ∃ route ∈ usable request maxHops reference
        (returned request maxHops maxCandidates provider), route.id = id := by
  simp only [usableIds, List.mem_toFinset, List.mem_map, List.mem_flatMap]
  constructor
  · rintro ⟨route, ⟨provider, hprovider, hroute⟩, rfl⟩
    exact ⟨provider, hprovider, route, hroute, rfl⟩
  · rintro ⟨provider, hprovider, route, hroute, rfl⟩
    exact ⟨route, ⟨provider, hprovider, hroute⟩, rfl⟩

theorem offeredIds_subset : offeredIds request maxHops maxCandidates reference providers ⊆
    usableIds request maxHops maxCandidates reference providers := by
  intro id hid
  obtain ⟨route, hroute, rfl⟩ := List.mem_map.mp (List.mem_toFinset.mp hid)
  obtain ⟨own, hown, hroute⟩ := List.mem_flatten.mp hroute
  obtain ⟨provider, hprovider, rfl⟩ := List.mem_map.mp hown
  exact mem_usableIds.mpr ⟨provider, hprovider, route, usable_take_subset hroute, rfl⟩

end

/-- One hop from XLM to USDC -/
def plainHop (venueId : String) (reliabilityBps : Number) : RouteHop where
  venue := .amm
  venueId
  sourceAsset := "XLM"
  destinationAsset := "USDC"
  sourceAmount := "10"
  expectedOutput := "20"
  feeAmount := "0"
  feeBps := 30
  slippageBps := 10
  reliabilityBps
  path := none
  minOutput := none

def callbackProvider (id : String) (found : List (List RouteHop)) : RouteProvider where
  id
  discover := fun _ _ => .ok found

def plainOptions (providers : List RouteProvider) (maxCandidates : Number) :
    RouteDiscoveryOptions where
  providers
  oracle := none
  maxHops := none
  maxCandidates := some maxCandidates

def plainRequest : RouteRequest := ⟨"XLM", "USDC", "10", none, none⟩

end StellarAgent.Routing
