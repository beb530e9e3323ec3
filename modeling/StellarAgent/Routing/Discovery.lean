import StellarAgent.Lib.Results
import StellarAgent.Routing.Types

set_option autoImplicit false

/-! # Normalising a route

`normalizeRoute` of `packages/core/src/routing/discovery.ts`, which admits the hops that a provider
has found. It admits a list of hops exactly if it is a chain of valid hops from the request's source
to its destination that repeats no asset, is not too long and goes through allowed intermediates
(`Admissible`), and it computes the summary from the hops (`normalizeRoute_ok_iff`).
-/

namespace StellarAgent.Routing

open Lib

/-! ## Checks -/

/-- The white space of `String.prototype.trim` -/
def isWhitespace (c : Char) : Bool :=
  decide (9 ≤ c.toNat ∧ c.toNat ≤ 13 ∨ 0x2000 ≤ c.toNat ∧ c.toNat ≤ 0x200A ∨
    c.toNat ∈ [32, 0xA0, 0x1680, 0x2028, 0x2029, 0x202F, 0x205F, 0x3000, 0xFEFF])

/-- `!text.trim()` -/
def isBlank (text : String) : Bool := text.toList.all isWhitespace

def invalidQuote {A : Type} (message : String) : Except Thrown A :=
  .error (.RouteUnavailable .INVALID_QUOTE message)

def parseNonNegativeInteger (value name : String) : Except Thrown ℕ :=
  if isCanonical value then .ok (amountOf value)
  else invalidQuote s!"{name} must be canonical integer base units"

def parsePositiveInteger (value name : String) : Except Thrown ℕ := do
  let parsed ← parseNonNegativeInteger value name
  if parsed = 0 then invalidQuote s!"{name} must be positive" else return parsed

def assertBps (value : Number) (name : String) : Except Thrown Unit :=
  if value.isIntegerIn 0 10000 then .ok ()
  else invalidQuote s!"{name} must be an integer from 0 to 10000"

def validateHop (hop : RouteHop) (index : ℕ) : Except Thrown Unit := do
  if isBlank hop.venueId || isBlank hop.sourceAsset || isBlank hop.destinationAsset then
    invalidQuote s!"hop {index} has an empty identifier"
  else if hop.sourceAsset = hop.destinationAsset ∧ hop.venue ≠ .direct then
    invalidQuote s!"hop {index} does not change assets"
  else
    let _ ← parseNonNegativeInteger hop.feeAmount s!"hop {index} feeAmount"
    assertBps hop.feeBps s!"hop {index} feeBps"
    assertBps hop.slippageBps s!"hop {index} slippageBps"
    assertBps hop.reliabilityBps s!"hop {index} reliabilityBps"
    match hop.minOutput with
    | some minOutput =>
        let _ ← parseNonNegativeInteger minOutput s!"hop {index} minOutput"
        return ()
    | none => return ()

/-! ## Identifiers -/

/-- The characters that `encodeURIComponent` keeps -/
def isUnreserved (c : Char) : Bool := c.isAlphanum || "-_.!~*'()".toList.contains c

/-- `encodeURIComponent`, with `~` for `%` -/
def escapeId (value : String) : String :=
  String.ofList (value.toList.flatMap fun c =>
    if isUnreserved c then [c]
    else (String.utf8EncodeChar c).flatMap fun byte =>
      ['~', (Nat.digitChar (byte.toNat / 16)).toUpper, (Nat.digitChar (byte.toNat % 16)).toUpper])

def venueText : RouteVenue → String
  | .direct => "direct"
  | .amm => "amm"
  | .path_payment => "path_payment"

def segmentText (hop : RouteHop) : String :=
  let path := match hop.path.getD [] with
    | [] => ""
    | assets => "(" ++ ",".intercalate (assets.map escapeId) ++ ")"
  venueText hop.venue ++ ":" ++ escapeId hop.venueId ++ path ++ ">" ++ escapeId hop.destinationAsset

def canonicalRouteId : List RouteHop → String
  | [] => "empty"
  | first :: rest =>
      escapeId first.sourceAsset ++ ">" ++ ">".intercalate ((first :: rest).map segmentText)

/-! ## The loop over the hops -/

/-- The assets that a hop goes through, with the one it ends at -/
def traversed (hop : RouteHop) : List String := hop.path.getD [] ++ [hop.destinationAsset]

def economicDepth (hops : List RouteHop) : ℕ :=
  (hops.map fun hop => 1 + (hop.path.getD []).length).sum

structure RouteState where
  assets : List String
  expectedSource : ℕ
  totalFeeBps : Number
  totalSlippageBps : Number
  reliabilityBps : Number
  previousAsset : String

/-- The assets of one hop, none of which may have been met before -/
def visitAll (identityDirect : Bool) (assets : List String) :
    List String → Except Thrown (List String)
  | [] => .ok assets
  | asset :: rest =>
      if asset ∈ assets ∧ identityDirect = false then
        invalidQuote s!"route contains an asset cycle at {asset}"
      else visitAll identityDirect (if identityDirect then assets else assets ++ [asset]) rest

def addHop (count : ℕ) (s : RouteState) (index : ℕ) (hop : RouteHop) :
    Except Thrown RouteState := do
  validateHop hop index
  if hop.sourceAsset ≠ s.previousAsset then
    invalidQuote s!"route is discontinuous at hop {index}"
  else
    let amount ← parsePositiveInteger hop.sourceAmount s!"hop {index} sourceAmount"
    if amount ≠ s.expectedSource then invalidQuote s!"amount is discontinuous at hop {index}"
    else
      let identityDirect := count == 1 && index == 0 && hop.venue == .direct &&
        hop.sourceAsset == hop.destinationAsset
      let assets ← visitAll identityDirect s.assets (traversed hop)
      let output ← parsePositiveInteger hop.expectedOutput s!"hop {index} expectedOutput"
      return {
        assets
        expectedSource := output
        totalFeeBps := Number.min 10000 (s.totalFeeBps.add hop.feeBps)
        totalSlippageBps := Number.min 10000 (s.totalSlippageBps.add hop.slippageBps)
        reliabilityBps := s.reliabilityBps.min hop.reliabilityBps
        previousAsset := hop.destinationAsset }

def addHops (count : ℕ) (s : RouteState) (index : ℕ) : List RouteHop → Except Thrown RouteState
  | [] => .ok s
  | hop :: rest => do
      let next ← addHop count s index hop
      addHops count next (index + 1) rest

def checkIntermediates (request : RouteRequest) (intermediates : List String) :
    Except Thrown Unit :=
  match request.allowedIntermediates with
  | none => .ok ()
  | some allowed =>
      match intermediates.find? fun asset => !allowed.contains asset with
      | some intermediate =>
          invalidQuote s!"route uses disallowed intermediate asset {intermediate}"
      | none => .ok ()

def normalizeRoute (request : RouteRequest) (hops : List RouteHop) (maxHops : Number) :
    Except Thrown RouteQuote := do
  if hops = [] then invalidQuote "route has no hops"
  else if maxHops.lt (.finite (economicDepth hops)) then
    invalidQuote s!"route depth {economicDepth hops} exceeds maximum {maxHops.text}"
  else
    let expectedSource ← parsePositiveInteger request.sourceAmount "sourceAmount"
    let s ← addHops hops.length {
      assets := [request.sourceAsset], expectedSource, totalFeeBps := 0, totalSlippageBps := 0
      reliabilityBps := 10000, previousAsset := request.sourceAsset } 0 hops
    if s.previousAsset ≠ request.destinationAsset then
      invalidQuote "route does not reach the destination asset"
    else
      checkIntermediates request s.assets.tail.dropLast
      return {
        id := canonicalRouteId hops
        sourceAsset := request.sourceAsset
        destinationAsset := request.destinationAsset
        sourceAmount := request.sourceAmount
        expectedDestinationAmount := toString s.expectedSource
        totalFeeBps := s.totalFeeBps
        expectedSlippageBps := s.totalSlippageBps
        reliabilityBps := s.reliabilityBps
        hopCount := .finite (economicDepth hops)
        hops
        expiresAtLedger := none }

/-! ## The oracle's adjustment -/

def applyOracleReference (route : RouteQuote) (reference : OracleReference) :
    Except Thrown RouteQuote := do
  let fair ← parsePositiveInteger reference.expectedDestinationAmount
    "oracle expectedDestinationAmount"
  let actual ← parsePositiveInteger route.expectedDestinationAmount "expectedDestinationAmount"
  -- natural subtraction: there is no shortfall where the route gives more
  let oracleSlippage := (fair - actual) * 10000 / fair
  let expires := (route.expiresAtLedger.toList ++ reference.expiresAtLedger.toList)
  return { route with
    expectedSlippageBps := route.expectedSlippageBps.max (.finite oracleSlippage)
    reliabilityBps := route.reliabilityBps.min reference.reliabilityBps
    expiresAtLedger := match expires with
      | [] => none
      | first :: rest => some (rest.foldl Number.min first) }

/-! ## What is admitted -/

/-- A canonical positive integer -/
def IsAmount (text : String) : Prop := isCanonical text = true ∧ amountOf text ≠ 0

structure ValidHop (hop : RouteHop) : Prop where
  venueId : isBlank hop.venueId = false
  sourceAsset : isBlank hop.sourceAsset = false
  destinationAsset : isBlank hop.destinationAsset = false
  changes : hop.sourceAsset = hop.destinationAsset → hop.venue = .direct
  feeAmount : isCanonical hop.feeAmount = true
  feeBps : hop.feeBps.isIntegerIn 0 10000 = true
  slippageBps : hop.slippageBps.isIntegerIn 0 10000 = true
  reliabilityBps : hop.reliabilityBps.isIntegerIn 0 10000 = true
  minOutput : ∀ minOutput, hop.minOutput = some minOutput → isCanonical minOutput = true

/-- Each hop starts with the asset and the amount that the one before it has ended with. -/
def Continuous (asset : String) (amount : ℕ) : List RouteHop → Prop
  | [] => True
  | hop :: rest =>
      hop.sourceAsset = asset ∧ IsAmount hop.sourceAmount ∧ amountOf hop.sourceAmount = amount ∧
        IsAmount hop.expectedOutput ∧ Continuous hop.destinationAsset (amountOf hop.expectedOutput) rest

/-- The one hop of a payment that changes no asset -/
def isIdentity : List RouteHop → Bool
  | [hop] => hop.venue == .direct && hop.sourceAsset == hop.destinationAsset
  | _ => false

/-- The assets of a route; an identity hop meets no asset but the source. -/
def assetsOf (source : String) (hops : List RouteHop) : List String :=
  if isIdentity hops then [source] else source :: hops.flatMap traversed

/-- **The routes that discovery admits.** -/
structure Admissible (request : RouteRequest) (hops : List RouteHop) (maxHops : Number) : Prop where
  nonempty : hops ≠ []
  depth : maxHops.lt (.finite (economicDepth hops)) = false
  amount : IsAmount request.sourceAmount
  valid : ∀ hop ∈ hops, ValidHop hop
  continuous : Continuous request.sourceAsset (amountOf request.sourceAmount) hops
  simple : (assetsOf request.sourceAsset hops).Nodup
  reaches : hops.foldl (fun _ hop => hop.destinationAsset) request.sourceAsset =
    request.destinationAsset
  allowed : ∀ allowed, request.allowedIntermediates = some allowed →
    ∀ asset ∈ (assetsOf request.sourceAsset hops).tail.dropLast, asset ∈ allowed

/-- Where the loop ends: sums and minima over the hops -/
def finalState (s : RouteState) (hops : List RouteHop) : RouteState where
  assets := s.assets ++ hops.flatMap traversed
  expectedSource := hops.foldl (fun _ hop => amountOf hop.expectedOutput) s.expectedSource
  totalFeeBps := hops.foldl (fun total hop => Number.min 10000 (total.add hop.feeBps)) s.totalFeeBps
  totalSlippageBps :=
    hops.foldl (fun total hop => Number.min 10000 (total.add hop.slippageBps)) s.totalSlippageBps
  reliabilityBps := hops.foldl (fun least hop => least.min hop.reliabilityBps) s.reliabilityBps
  previousAsset := hops.foldl (fun _ hop => hop.destinationAsset) s.previousAsset

def initialState (request : RouteRequest) : RouteState where
  assets := [request.sourceAsset]
  expectedSource := amountOf request.sourceAmount
  totalFeeBps := 0
  totalSlippageBps := 0
  reliabilityBps := 10000
  previousAsset := request.sourceAsset

/-- Where the loop over a request's hops ends -/
def endState (request : RouteRequest) (hops : List RouteHop) : RouteState :=
  { finalState (initialState request) hops with assets := assetsOf request.sourceAsset hops }

/-- **The quote of a list of hops.** -/
def quoteOf (request : RouteRequest) (hops : List RouteHop) : RouteQuote :=
  let s := endState request hops
  { id := canonicalRouteId hops
    sourceAsset := request.sourceAsset
    destinationAsset := request.destinationAsset
    sourceAmount := request.sourceAmount
    expectedDestinationAmount := toString s.expectedSource
    totalFeeBps := s.totalFeeBps
    expectedSlippageBps := s.totalSlippageBps
    reliabilityBps := s.reliabilityBps
    hopCount := .finite (economicDepth hops)
    hops
    expiresAtLedger := none }

/-! ## The checks, read off -/

section

variable {request : RouteRequest} {hop : RouteHop} {hops : List RouteHop} {maxHops : Number}
  {s t : RouteState} {count index : ℕ} {value name : String} {amount : ℕ}

theorem parseNonNegativeInteger_ok :
    parseNonNegativeInteger value name = .ok amount ↔
      isCanonical value = true ∧ amountOf value = amount := by
  unfold parseNonNegativeInteger
  split_ifs with h
  · simp [h]
  · simp [h, invalidQuote]

theorem parsePositiveInteger_ok :
    parsePositiveInteger value name = .ok amount ↔ IsAmount value ∧ amountOf value = amount := by
  rw [parsePositiveInteger, bind_eq_ok]
  constructor
  · rintro ⟨parsed, hparsed, hrest⟩
    obtain ⟨hcanonical, rfl⟩ := parseNonNegativeInteger_ok.mp hparsed
    split_ifs at hrest with hzero
    · cases hrest
    · cases hrest
      exact ⟨⟨hcanonical, hzero⟩, rfl⟩
  · rintro ⟨⟨hcanonical, hzero⟩, rfl⟩
    exact ⟨_, parseNonNegativeInteger_ok.mpr ⟨hcanonical, rfl⟩, by rw [if_neg hzero]; rfl⟩

theorem assertBps_ok {bps : Number} :
    assertBps bps name = .ok () ↔ bps.isIntegerIn 0 10000 = true := by
  unfold assertBps
  split_ifs with h
  · simp [h]
  · simp [h, invalidQuote]

theorem validateHop_ok : validateHop hop index = .ok () ↔ ValidHop hop := by
  unfold validateHop
  constructor
  · intro h
    split_ifs at h with hblank hsame
    · cases h
    · cases h
    obtain ⟨fee, hfee, h⟩ := bind_eq_ok.mp h
    obtain ⟨_, hfeeBps, h⟩ := bind_eq_ok.mp h
    obtain ⟨_, hslippage, h⟩ := bind_eq_ok.mp h
    obtain ⟨_, hreliability, h⟩ := bind_eq_ok.mp h
    simp only [Bool.or_eq_true, not_or, Bool.not_eq_true] at hblank
    refine ⟨hblank.1.1, hblank.1.2, hblank.2, ?_, (parseNonNegativeInteger_ok.mp hfee).1,
      assertBps_ok.mp hfeeBps, assertBps_ok.mp hslippage, assertBps_ok.mp hreliability, ?_⟩
    · intro hassets
      by_contra hvenue
      exact hsame ⟨hassets, hvenue⟩
    · intro minOutput hmin
      rw [hmin] at h
      obtain ⟨parsed, hparsed, _⟩ := bind_eq_ok.mp h
      exact (parseNonNegativeInteger_ok.mp hparsed).1
  · intro h
    have hblank : ¬ (isBlank hop.venueId || isBlank hop.sourceAsset ||
        isBlank hop.destinationAsset) = true := by
      rw [h.venueId, h.sourceAsset, h.destinationAsset]
      decide
    have hsame : ¬ (hop.sourceAsset = hop.destinationAsset ∧ hop.venue ≠ .direct) :=
      fun hsame => hsame.2 (h.changes hsame.1)
    rw [if_neg hblank, if_neg hsame, parseNonNegativeInteger_ok.mpr ⟨h.feeAmount, rfl⟩, ok_bind,
      assertBps_ok.mpr h.feeBps, ok_bind, assertBps_ok.mpr h.slippageBps, ok_bind,
      assertBps_ok.mpr h.reliabilityBps, ok_bind]
    cases hmin : hop.minOutput with
    | none => rfl
    | some minOutput =>
        dsimp only
        rw [parseNonNegativeInteger_ok.mpr ⟨h.minOutput minOutput hmin, rfl⟩]
        rfl

/-! ## The loop, read off -/

theorem visitAll_identity {assets new : List String} : visitAll true assets new = .ok assets := by
  induction new with
  | nil => rfl
  | cons asset rest ih =>
      rw [visitAll, if_neg (by simp)]
      exact ih

/-- New assets are appended if none is repeated. -/
theorem visitAll_ok {assets new met : List String} (hnodup : assets.Nodup) :
    visitAll false assets new = .ok met ↔ (assets ++ new).Nodup ∧ met = assets ++ new := by
  induction new generalizing assets with
  | nil =>
      rw [List.append_nil]
      constructor
      · intro h
        exact ⟨hnodup, (Except.ok.inj h).symm⟩
      · rintro ⟨_, rfl⟩
        rfl
  | cons asset rest ih =>
      rw [visitAll]
      have hsplit : assets ++ asset :: rest = assets ++ [asset] ++ rest := by
        rw [List.append_assoc, List.singleton_append]
      by_cases hmem : asset ∈ assets
      · rw [if_pos ⟨hmem, rfl⟩]
        constructor
        · intro h
          cases h
        · rintro ⟨hall, _⟩
          have hdisjoint := List.disjoint_of_nodup_append hall
          exact absurd List.mem_cons_self (hdisjoint hmem)
      · have hnext : (assets ++ [asset]).Nodup := by
          rw [List.nodup_append]
          exact ⟨hnodup, List.nodup_singleton asset, by grind⟩
        rw [if_neg (fun h => hmem h.1), if_neg (by simp), ih hnext, hsplit]

theorem RouteState.withAssets_self (s : RouteState) : { s with assets := s.assets } = s := rfl

/-- The one hop that the code exempts from the test for cycles -/
def exempt (count index : ℕ) (hop : RouteHop) : Bool :=
  count == 1 && index == 0 && hop.venue == .direct && hop.sourceAsset == hop.destinationAsset

theorem addHop_ok :
    addHop count s index hop = .ok t ↔
      ValidHop hop ∧ hop.sourceAsset = s.previousAsset ∧ IsAmount hop.sourceAmount ∧
        amountOf hop.sourceAmount = s.expectedSource ∧ IsAmount hop.expectedOutput ∧
        visitAll (exempt count index hop) s.assets (traversed hop) = .ok t.assets ∧
        t = { finalState s [hop] with assets := t.assets } := by
  unfold addHop
  constructor
  · intro h
    obtain ⟨_, hvalid, h⟩ := bind_eq_ok.mp h
    split_ifs at h with hasset
    · cases h
    obtain ⟨amount, hamount, h⟩ := bind_eq_ok.mp h
    obtain ⟨hsource, rfl⟩ := parsePositiveInteger_ok.mp hamount
    split_ifs at h with hexpected
    · cases h
    obtain ⟨assets, hassets, h⟩ := bind_eq_ok.mp h
    obtain ⟨output, houtput, h⟩ := bind_eq_ok.mp h
    obtain ⟨hpositive, rfl⟩ := parsePositiveInteger_ok.mp houtput
    cases h
    exact ⟨validateHop_ok.mp hvalid, not_not.mp hasset, hsource, not_not.mp hexpected, hpositive,
      hassets, rfl⟩
  · rintro ⟨hvalid, hasset, hsource, hexpected, hpositive, hassets, ht⟩
    rw [validateHop_ok.mpr hvalid, ok_bind, if_neg (not_not.mpr hasset),
      parsePositiveInteger_ok.mpr ⟨hsource, rfl⟩, ok_bind, if_neg (not_not.mpr hexpected)]
    show (visitAll (exempt count index hop) s.assets (traversed hop) >>= _) = .ok t
    rw [hassets, ok_bind, parsePositiveInteger_ok.mpr ⟨hpositive, rfl⟩, ok_bind, ht]
    rfl

/-- The loop over hops of which none is exempt. -/
theorem addHops_ok (hexempt : ∀ index, ∀ hop ∈ hops, exempt count index hop = false)
    (hnodup : s.assets.Nodup) :
    addHops count s index hops = .ok t ↔
      (∀ hop ∈ hops, ValidHop hop) ∧ Continuous s.previousAsset s.expectedSource hops ∧
        (s.assets ++ hops.flatMap traversed).Nodup ∧ t = finalState s hops := by
  induction hops generalizing s index with
  | nil =>
      rw [addHops]
      constructor
      · intro h
        cases h
        exact ⟨by simp, trivial, by simpa using hnodup, by simp [finalState]⟩
      · rintro ⟨_, _, _, rfl⟩
        simp [finalState]
  | cons hop rest ih =>
      have hrest : ∀ index, ∀ hop ∈ rest, exempt count index hop = false :=
        fun index hop hmem => hexempt index hop (List.mem_cons_of_mem _ hmem)
      have happend : s.assets ++ (hop :: rest).flatMap traversed =
          s.assets ++ traversed hop ++ rest.flatMap traversed := by
        rw [List.flatMap_cons, List.append_assoc]
      have hfinal : finalState (finalState s [hop]) rest = finalState s (hop :: rest) := by
        simp [finalState]
      rw [addHops, bind_eq_ok, List.forall_mem_cons, happend, ← hfinal]
      constructor
      · rintro ⟨next, hnext, hlast⟩
        obtain ⟨hvalid, hasset, hsource, hexpected, hpositive, hassets, hnext⟩ := addHop_ok.mp hnext
        rw [hexempt index hop List.mem_cons_self, visitAll_ok hnodup] at hassets
        have hstate : next = finalState s [hop] := by
          rw [hnext, hassets.2]
          simp [finalState]
        rw [hstate] at hlast
        have hmet : (finalState s [hop]).assets = s.assets ++ traversed hop := by simp [finalState]
        obtain ⟨hall, hcontinuous, hsimple, ht⟩ := (ih hrest (by rw [hmet]; exact hassets.1)).mp hlast
        rw [hmet] at hsimple
        exact ⟨⟨hvalid, hall⟩, ⟨hasset, hsource, hexpected, hpositive, hcontinuous⟩, hsimple, ht⟩
      · rintro ⟨⟨hvalid, hall⟩, ⟨hasset, hsource, hexpected, hpositive, hcontinuous⟩, hsimple, ht⟩
        have hmet : (finalState s [hop]).assets = s.assets ++ traversed hop := by simp [finalState]
        have hfirst : (s.assets ++ traversed hop).Nodup := hsimple.of_append_left
        refine ⟨finalState s [hop], addHop_ok.mpr ⟨hvalid, hasset, hsource, hexpected, hpositive,
          ?_, (RouteState.withAssets_self _).symm⟩, (ih hrest (by rw [hmet]; exact hfirst)).mpr ?_⟩
        · rw [hexempt index hop List.mem_cons_self, visitAll_ok hnodup]
          exact ⟨hfirst, hmet⟩
        · rw [hmet]
          exact ⟨hall, hcontinuous, hsimple, ht⟩

/-- The loop over one exempt hop. -/
theorem addHops_identity (hexempt : exempt 1 0 hop = true) :
    addHops 1 s 0 [hop] = .ok t ↔
      ValidHop hop ∧ Continuous s.previousAsset s.expectedSource [hop] ∧
        t = { finalState s [hop] with assets := s.assets } := by
  rw [addHops, bind_eq_ok]
  constructor
  · rintro ⟨next, hnext, hlast⟩
    cases hlast
    obtain ⟨hvalid, hasset, hsource, hexpected, hpositive, hassets, ht⟩ := addHop_ok.mp hnext
    rw [hexempt, visitAll_identity] at hassets
    rw [← Except.ok.inj hassets] at ht
    exact ⟨hvalid, ⟨hasset, hsource, hexpected, hpositive, trivial⟩, ht⟩
  · rintro ⟨hvalid, ⟨hasset, hsource, hexpected, hpositive, _⟩, ht⟩
    refine ⟨t, addHop_ok.mpr ⟨hvalid, hasset, hsource, hexpected, hpositive, ?_, ?_⟩, rfl⟩
    · rw [hexempt, visitAll_identity, ht]
    · rw [ht]

/-- No hop is exempt but the one of an identity route. -/
theorem exempt_eq_false (h : isIdentity hops = false) (index : ℕ) (hmem : hop ∈ hops) :
    exempt hops.length index hop = false := by
  match hops, h, hmem with
  | [first], h, hmem =>
      obtain rfl := List.mem_singleton.mp hmem
      have hnot : (hop.venue == .direct && hop.sourceAsset == hop.destinationAsset) = false := h
      rw [exempt, Bool.and_assoc, hnot, Bool.and_false]
  | first :: second :: rest, _, _ => simp [exempt]

theorem exempt_of_identity (h : isIdentity hops = true) :
    ∃ hop, hops = [hop] ∧ exempt 1 0 hop = true := by
  unfold isIdentity at h
  split at h
  · rename_i hop
    exact ⟨hop, rfl, by simpa [exempt] using h⟩
  · cases h

/-- The whole loop, from its initial state. -/
theorem addHops_initial :
    addHops hops.length (initialState request) 0 hops = .ok t ↔
      (∀ hop ∈ hops, ValidHop hop) ∧
        Continuous request.sourceAsset (amountOf request.sourceAmount) hops ∧
        (assetsOf request.sourceAsset hops).Nodup ∧ t = endState request hops := by
  unfold endState
  cases hidentity : isIdentity hops with
  | true =>
      obtain ⟨hop, rfl, hexempt⟩ := exempt_of_identity hidentity
      have hassets : assetsOf request.sourceAsset [hop] = [request.sourceAsset] := by
        rw [assetsOf, if_pos hidentity]
      rw [hassets, List.forall_mem_singleton, List.length_singleton, addHops_identity hexempt]
      simp [initialState]
  | false =>
      have hassets : assetsOf request.sourceAsset hops =
          (initialState request).assets ++ hops.flatMap traversed := by
        simp [assetsOf, hidentity, initialState]
      rw [hassets, addHops_ok (fun index hop hmem => exempt_eq_false hidentity index hmem)
        (List.nodup_singleton _)]
      rfl

theorem checkIntermediates_ok {intermediates : List String} :
    checkIntermediates request intermediates = .ok () ↔
      ∀ allowed, request.allowedIntermediates = some allowed →
        ∀ asset ∈ intermediates, asset ∈ allowed := by
  unfold checkIntermediates
  cases request.allowedIntermediates with
  | none => simp
  | some allowed =>
      dsimp only
      split
      · rename_i intermediate hfind
        have hmem := List.mem_of_find?_eq_some hfind
        have hout := List.find?_some hfind
        simp only [Bool.not_eq_true', List.contains_iff_mem, ← Bool.not_eq_true] at hout
        constructor
        · intro h
          cases h
        · intro h
          exact absurd (h allowed rfl intermediate hmem) hout
      · rename_i hfind
        simpa using hfind

/-- **Discovery admits exactly the admissible routes**, with the quote that their hops give. -/
theorem normalizeRoute_ok_iff {quote : RouteQuote} :
    normalizeRoute request hops maxHops = .ok quote ↔
      Admissible request hops maxHops ∧ quote = quoteOf request hops := by
  unfold normalizeRoute
  constructor
  · intro h
    split_ifs at h with hempty hdepth
    · cases h
    · cases h
    obtain ⟨amount, hamount, h⟩ := bind_eq_ok.mp h
    obtain ⟨hsource, rfl⟩ := parsePositiveInteger_ok.mp hamount
    obtain ⟨t, ht, h⟩ := bind_eq_ok.mp h
    obtain ⟨hvalid, hcontinuous, hsimple, rfl⟩ := addHops_initial.mp ht
    split_ifs at h with hreaches
    · cases h
    obtain ⟨_, hallowed, h⟩ := bind_eq_ok.mp h
    cases h
    exact ⟨⟨hempty, Bool.not_eq_true _ ▸ hdepth, hsource, hvalid, hcontinuous, hsimple,
      not_not.mp hreaches, checkIntermediates_ok.mp hallowed⟩, rfl⟩
  · rintro ⟨h, rfl⟩
    rw [if_neg h.nonempty, if_neg (by rw [h.depth]; decide),
      parsePositiveInteger_ok.mpr ⟨h.amount, rfl⟩, ok_bind]
    have hloop := addHops_initial.mpr ⟨h.valid, h.continuous, h.simple, rfl⟩
    have hreaches : (endState request hops).previousAsset = request.destinationAsset := h.reaches
    have hallowed : checkIntermediates request (endState request hops).assets.tail.dropLast =
        .ok () := checkIntermediates_ok.mpr h.allowed
    show (addHops hops.length (initialState request) 0 hops >>= _) = _
    rw [hloop, ok_bind, if_neg (not_not.mpr hreaches), hallowed]
    rfl

end

end StellarAgent.Routing
