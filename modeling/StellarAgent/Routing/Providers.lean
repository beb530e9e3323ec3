import StellarAgent.Routing.Types

set_option autoImplicit false

/-! # Routes over a market maker

`AmmRouteProvider` of `packages/core/src/routing/providers.ts`: a depth-first search over directed
pairs, each hop quoted on the output of the one before. The search stops at `maxCandidates` routes,
but a loop that is still open above the search that has found the last one goes on, and takes one
more route if the destination is one hop away. `discover_eq` says exactly which routes come out: the
first `maxCandidates` in the order of the search (`routesFrom`), and the later ones that leave the
last of these after some of its hops to go straight to the destination.
-/

namespace StellarAgent.Routing

/-! ## The provider -/

structure AmmRouteProviderOptions where
  venueId : String
  pairs : List AmmPair
  /-- The quote callback: nothing where it throws or finds no quote -/
  quote : AmmPair → String → Option AmmHopQuote

def pairKey (pair : AmmPair) : String := pair.sourceAsset ++ "\x00" ++ pair.destinationAsset

/-- The bytes by which texts are compared -/
def utf8Bytes (text : String) : List ℕ :=
  text.toList.flatMap fun c => (String.utf8EncodeChar c).map UInt8.toNat

/-- `compareUtf8(pairKey(a), pairKey(b)) <= 0` -/
def pairLe (a b : AmmPair) : Prop := ¬ utf8Bytes (pairKey b) < utf8Bytes (pairKey a)

instance (a b : AmmPair) : Decidable (pairLe a b) := inferInstanceAs (Decidable (¬ _))

structure AmmRouteProvider where
  venueId : String
  pairs : List AmmPair
  quoteHop : AmmPair → String → Option AmmHopQuote

def AmmRouteProvider.new (options : AmmRouteProviderOptions) : AmmRouteProvider where
  venueId := options.venueId
  pairs := options.pairs.insertionSort pairLe
  quoteHop := options.quote

namespace AmmRouteProvider

variable (provider : AmmRouteProvider) (request : RouteRequest) (context : RouteProviderContext)

def outgoing (asset : String) : List AmmPair :=
  provider.pairs.filter fun pair => pair.sourceAsset = asset

def hopOf (pair : AmmPair) (amount : String) (quote : AmmHopQuote) : RouteHop where
  venue := .amm
  venueId := provider.venueId
  sourceAsset := pair.sourceAsset
  destinationAsset := pair.destinationAsset
  sourceAmount := amount
  expectedOutput := quote.expectedOutput
  feeAmount := quote.feeAmount.getD "0"
  feeBps := quote.feeBps.getD 0
  slippageBps := quote.slippageBps.getD 0
  reliabilityBps := quote.reliabilityBps.getD 9500
  path := none
  minOutput := quote.minOutput

/-- An intermediate that the request does not allow -/
def isDisallowed (asset : String) : Bool :=
  asset != request.destinationAsset &&
    request.allowedIntermediates.any fun allowed => !allowed.contains asset

/-- The hop over a pair, unless the pair is passed over -/
def tryHop (visited : List String) (amount : String) (pair : AmmPair) : Option RouteHop :=
  if visited.contains pair.destinationAsset || isDisallowed request pair.destinationAsset then none
  else (provider.quoteHop pair amount).map (provider.hopOf pair amount)

/-- The loop over the outgoing pairs; `enter` walks on from a hop. -/
def walkPairs (visited : List String) (amount : String) (hops : List RouteHop)
    (enter : RouteHop → List (List RouteHop) → List (List RouteHop)) :
    List AmmPair → List (List RouteHop) → List (List RouteHop)
  | [], routes => routes
  | pair :: rest, routes =>
      match provider.tryHop request visited amount pair with
      | none => walkPairs visited amount hops enter rest routes
      | some hop =>
          if pair.destinationAsset = request.destinationAsset then
            let routes := routes ++ [hops ++ [hop]]
            if context.maxCandidates ≤ routes.length then routes
            else walkPairs visited amount hops enter rest routes
          else walkPairs visited amount hops enter rest (enter hop routes)

/-- The search from an asset, with as many hops left as the first argument says. -/
def walk : ℕ → String → String → List RouteHop → List String → List (List RouteHop) →
    List (List RouteHop)
  | 0, _, _, _, _, routes => routes
  | remaining + 1, asset, amount, hops, visited, routes =>
      if context.maxCandidates ≤ routes.length then routes
      else
        provider.walkPairs request context visited amount hops
          (fun hop => walk remaining hop.destinationAsset hop.expectedOutput (hops ++ [hop])
            (visited ++ [hop.destinationAsset]))
          (provider.outgoing asset) routes

def discover : List (List RouteHop) :=
  if request.sourceAsset = request.destinationAsset then []
  else provider.walk request context context.maxHops request.sourceAsset request.sourceAmount []
    [request.sourceAsset] []

/-! ## The routes there are -/

/-- Each hop is a pair quoted on the output of the hop before. -/
def Quoted (asset amount : String) : List RouteHop → Prop
  | [] => True
  | hop :: rest =>
      ∃ pair ∈ provider.pairs, ∃ quote, pair.sourceAsset = asset ∧
        provider.quoteHop pair amount = some quote ∧ hop = provider.hopOf pair amount quote ∧
        Quoted pair.destinationAsset quote.expectedOutput rest

/-- The request allows the assets as intermediates. -/
def Allowed (assets : List String) : Prop :=
  ∀ allowed, request.allowedIntermediates = some allowed → ∀ asset ∈ assets, asset ∈ allowed

/-- A path of quoted hops from an asset to the destination, of bounded length, that meets no asset
twice, none that has been visited, and only allowed intermediates. -/
structure RouteFrom (remaining : ℕ) (asset amount : String) (visited : List String)
    (hops : List RouteHop) : Prop where
  quoted : provider.Quoted asset amount hops
  length : hops.length ≤ remaining
  reaches : hops.getLast?.map RouteHop.destinationAsset = some request.destinationAsset
  simple : (visited ++ hops.map RouteHop.destinationAsset).Nodup
  allowed : Allowed request (hops.map RouteHop.destinationAsset).dropLast

/-- **A route of the request.** -/
def IsRoute (hops : List RouteHop) : Prop :=
  RouteFrom provider request context.maxHops request.sourceAsset request.sourceAmount
    [request.sourceAsset] hops

/-- The routes over one pair -/
def branch (visited : List String) (amount : String)
    (further : RouteHop → List (List RouteHop)) (pair : AmmPair) : List (List RouteHop) :=
  match provider.tryHop request visited amount pair with
  | none => []
  | some hop =>
      if pair.destinationAsset = request.destinationAsset then [[hop]]
      else (further hop).map (hop :: ·)

/-- All routes from an asset, in the order of the search. -/
def routesFrom : ℕ → String → String → List String → List (List RouteHop)
  | 0, _, _, _ => []
  | remaining + 1, asset, amount, visited =>
      (provider.outgoing asset).flatMap (provider.branch request visited amount fun hop =>
        routesFrom remaining hop.destinationAsset hop.expectedOutput
          (visited ++ [hop.destinationAsset]))

/-- All routes of a request, in the order of the search. -/
def routes : List (List RouteHop) :=
  provider.routesFrom request context.maxHops request.sourceAsset request.sourceAmount
    [request.sourceAsset]

/-- The first `count`, and the later ones that leave the last of these for one more hop. -/
def kept (count : ℕ) (all : List (List RouteHop)) : List (List RouteHop) :=
  all.take count ++ (all.drop count).filter fun later =>
    decide (later.dropLast <+: (all[count - 1]?).getD [])

/-! ## What is kept -/

section

variable {all first rest : List (List RouteHop)} {route : List RouteHop} {count : ℕ}

theorem kept_nil : kept count [] = [] := by simp [kept]

theorem kept_of_length_le (h : all.length ≤ count) : kept count all = all := by
  rw [kept, List.drop_eq_nil_of_le h, List.take_of_length_le h, List.filter_nil, List.append_nil]

theorem kept_cons (h : 2 ≤ count) : kept count (route :: rest) = route :: kept (count - 1) rest := by
  obtain ⟨count, rfl⟩ := Nat.exists_eq_add_of_le' h
  rfl

/-- Where a first part leaves room, all of it is kept. -/
theorem kept_append_of_lt (h : first.length < count) :
    kept count (first ++ rest) = first ++ kept (count - first.length) rest := by
  induction first generalizing count with
  | nil => rfl
  | cons route first ih =>
      rw [List.length_cons] at h
      have hcount : count - 1 - first.length = count - (first.length + 1) := by omega
      rw [List.cons_append, kept_cons (by omega), ih (by omega), List.length_cons, hcount,
        List.cons_append]

/-- Where it leaves none, the second part is searched for what leaves the last route kept. -/
theorem kept_append_of_le (hpos : 0 < count) (h : count ≤ first.length) :
    kept count (first ++ rest) = kept count first ++ rest.filter fun later =>
      decide (later.dropLast <+: (first[count - 1]?).getD []) := by
  unfold kept
  rw [List.take_append_of_le_length h, List.drop_append_of_le_length h, List.filter_append,
    List.append_assoc]
  rw [List.getElem?_append_left (by omega)]

/-- A common first hop makes no difference. -/
theorem kept_map (hop : RouteHop) (hne : ∀ route ∈ all, route ≠ []) :
    kept count (all.map (hop :: ·)) = (kept count all).map (hop :: ·) := by
  unfold kept
  rw [List.map_append, ← List.map_take, ← List.map_drop, List.filter_map]
  congr 2
  refine List.filter_congr fun later hlater => ?_
  have hlong : count < all.length := by
    by_contra hshort
    rw [List.drop_eq_nil_of_le (by omega)] at hlater
    cases hlater
  have hlater : later ≠ [] := hne later (List.mem_of_mem_drop hlater)
  have hlast : all[count - 1]? = some all[count - 1] := List.getElem?_eq_getElem _
  rw [Function.comp_apply, decide_eq_decide, List.dropLast_cons_of_ne_nil hlater,
    List.getElem?_map, hlast]
  exact List.prefix_cons_inj hop

end

/-! ## The routes over a pair -/

section

variable {provider request context} {visited hopsAssets : List String} {asset amount : String}
  {hops route : List RouteHop} {pair : AmmPair} {pairs : List AmmPair} {hop : RouteHop}
  {remaining : ℕ} {found : List (List RouteHop)}
  {further : RouteHop → List (List RouteHop)}
  {enter : RouteHop → List (List RouteHop) → List (List RouteHop)}

theorem tryHop_some (h : provider.tryHop request visited amount pair = some hop) :
    ∃ quote, provider.quoteHop pair amount = some quote ∧ hop = provider.hopOf pair amount quote ∧
      pair.destinationAsset ∉ visited ∧ isDisallowed request pair.destinationAsset = false := by
  unfold tryHop at h
  split_ifs at h with hpassed
  obtain ⟨quote, hquote, rfl⟩ := Option.map_eq_some_iff.mp h
  simp only [Bool.or_eq_true, not_or, Bool.not_eq_true, List.contains_eq_mem,
    decide_eq_false_iff_not] at hpassed
  exact ⟨quote, hquote, rfl, hpassed.1, hpassed.2⟩

theorem tryHop_destination (h : provider.tryHop request visited amount pair = some hop) :
    hop.destinationAsset = pair.destinationAsset := by
  obtain ⟨quote, _, rfl, _⟩ := tryHop_some h
  rfl

/-- A route over a pair starts with the hop over it, and ends there exactly at the destination. -/
theorem mem_branch (hne : ∀ hop, ∀ route ∈ further hop, route ≠ []) :
    route ∈ provider.branch request visited amount further pair ↔
      ∃ hop rest, route = hop :: rest ∧ provider.tryHop request visited amount pair = some hop ∧
        (rest = [] ∧ pair.destinationAsset = request.destinationAsset ∨
          rest ∈ further hop ∧ pair.destinationAsset ≠ request.destinationAsset) := by
  unfold branch
  cases htry : provider.tryHop request visited amount pair with
  | none => simp
  | some hop =>
      dsimp only
      split_ifs with hdestination
      · rw [List.mem_singleton]
        constructor
        · rintro rfl
          exact ⟨hop, [], rfl, rfl, Or.inl ⟨rfl, hdestination⟩⟩
        · rintro ⟨_, rest, rfl, hhop, hrest⟩
          cases hhop
          rcases hrest with ⟨rfl, _⟩ | ⟨_, hother⟩
          · rfl
          · exact absurd hdestination hother
      · rw [List.mem_map]
        constructor
        · rintro ⟨rest, hrest, rfl⟩
          exact ⟨hop, rest, rfl, rfl, Or.inr ⟨hrest, hdestination⟩⟩
        · rintro ⟨_, rest, rfl, hhop, hrest⟩
          cases hhop
          rcases hrest with ⟨_, hdest⟩ | ⟨hrest, _⟩
          · exact absurd hdest hdestination
          · exact ⟨rest, hrest, rfl⟩

theorem routesFrom_ne_nil (h : route ∈ provider.routesFrom request remaining asset amount visited) :
    route ≠ [] := by
  induction remaining generalizing asset amount visited route with
  | zero => cases h
  | succ remaining ih =>
      obtain ⟨pair, _, hbranch⟩ := List.mem_flatMap.mp h
      obtain ⟨hop, rest, rfl, _⟩ := (mem_branch (fun hop route hmem => ih hmem)).mp hbranch
      exact List.cons_ne_nil hop rest

/-- A route over one of the pairs follows another hop for no more than one hop of its own. -/
theorem prefix_iff_direct (hne : ∀ hop, ∀ route ∈ further hop, route ≠ [])
    (hroute : route ∈ pairs.flatMap (provider.branch request visited amount further))
    (hother : hop.destinationAsset ∉ pairs.map AmmPair.destinationAsset) :
    route.dropLast <+: hop :: hops ↔ route.dropLast = [] := by
  obtain ⟨pair, hpair, hbranch⟩ := List.mem_flatMap.mp hroute
  obtain ⟨first, rest, rfl, htry, _⟩ := (mem_branch hne).mp hbranch
  constructor
  · intro hprefix
    by_contra hlong
    have hrest : rest ≠ [] := by
      rintro rfl
      exact hlong rfl
    rw [List.dropLast_cons_of_ne_nil hrest, List.cons_prefix_cons] at hprefix
    refine hother ?_
    rw [← hprefix.1, tryHop_destination htry]
    exact List.mem_map_of_mem hpair
  · intro h
    rw [h]
    exact List.nil_prefix

/-- Only a pair to the destination has a route of one hop. -/
theorem direct_destination (hne : ∀ hop, ∀ route ∈ further hop, route ≠ [])
    (hroute : route ∈ provider.branch request visited amount further pair)
    (hdirect : route.dropLast = []) : pair.destinationAsset = request.destinationAsset := by
  obtain ⟨first, rest, rfl, _, hrest⟩ := (mem_branch hne).mp hroute
  rcases hrest with ⟨_, hdest⟩ | ⟨hrest, _⟩
  · exact hdest
  · rw [List.dropLast_cons_of_ne_nil (hne first rest hrest)] at hdirect
    cases hdirect

/-- No pair but one leads to the destination. -/
theorem no_direct (hne : ∀ hop, ∀ route ∈ further hop, route ≠ [])
    (hother : request.destinationAsset ∉ pairs.map AmmPair.destinationAsset) :
    (pairs.flatMap (provider.branch request visited amount further)).filter
      (fun route => decide (route.dropLast = [])) = [] := by
  rw [List.filter_eq_nil_iff]
  intro route hroute hdirect
  obtain ⟨pair, hpair, hbranch⟩ := List.mem_flatMap.mp hroute
  rw [← direct_destination hne hbranch (of_decide_eq_true hdirect)] at hother
  exact hother (List.mem_map_of_mem hpair)

/-- **A loop that goes on with all routes found** takes the route of one hop, if there is one. -/
theorem walkPairs_full (hne : ∀ hop, ∀ route ∈ further hop, route ≠ [])
    (henter : ∀ hop found, context.maxCandidates ≤ found.length → enter hop found = found)
    (hapart : (pairs.map AmmPair.destinationAsset).Nodup)
    (hfull : context.maxCandidates ≤ found.length) :
    provider.walkPairs request context visited amount hops enter pairs found =
      found ++ ((pairs.flatMap (provider.branch request visited amount further)).filter
        fun route => decide (route.dropLast = [])).map (hops ++ ·) := by
  induction pairs with
  | nil => simp [walkPairs]
  | cons pair pairs ih =>
      rw [List.map_cons, List.nodup_cons] at hapart
      rw [walkPairs, List.flatMap_cons, List.filter_append]
      cases htry : provider.tryHop request visited amount pair with
      | none =>
          have hbranch : provider.branch request visited amount further pair = [] := by
            rw [branch, htry]
          rw [hbranch, List.filter_nil, List.nil_append]
          exact ih hapart.2
      | some hop =>
          dsimp only
          by_cases hdest : pair.destinationAsset = request.destinationAsset
          · have hbranch : provider.branch request visited amount further pair = [[hop]] := by
              rw [branch, htry]
              exact if_pos hdest
            rw [if_pos hdest, if_pos (by rw [List.length_append]; omega), hbranch,
              no_direct hne (hdest ▸ hapart.1)]
            rfl
          · have hbranch : (provider.branch request visited amount further pair).filter
                (fun route => decide (route.dropLast = [])) = [] := by
              rw [List.filter_eq_nil_iff]
              intro route hroute hdirect
              exact hdest (direct_destination hne hroute (of_decide_eq_true hdirect))
            rw [if_neg hdest, henter hop found hfull, hbranch, List.nil_append]
            exact ih hapart.2

/-- **The loop over the pairs** keeps what the bound leaves of the routes over them. -/
theorem walkPairs_eq (hne : ∀ hop, ∀ route ∈ further hop, route ≠ [])
    (henter : ∀ hop found, enter hop found =
      if context.maxCandidates ≤ found.length then found
      else found ++ (kept (context.maxCandidates - found.length) (further hop)).map
        ((hops ++ [hop]) ++ ·))
    (hapart : (pairs.map AmmPair.destinationAsset).Nodup)
    (hroom : found.length < context.maxCandidates) :
    provider.walkPairs request context visited amount hops enter pairs found =
      found ++ (kept (context.maxCandidates - found.length)
        (pairs.flatMap (provider.branch request visited amount further))).map (hops ++ ·) := by
  induction pairs generalizing found with
  | nil => simp [walkPairs, kept_nil]
  | cons pair pairs ih =>
      rw [List.map_cons, List.nodup_cons] at hapart
      have hfull : ∀ hop found, context.maxCandidates ≤ found.length → enter hop found = found := by
        intro hop found hle
        rw [henter, if_pos hle]
      rw [walkPairs, List.flatMap_cons]
      cases htry : provider.tryHop request visited amount pair with
      | none =>
          have hbranch : provider.branch request visited amount further pair = [] := by
            rw [branch, htry]
          rw [hbranch, List.nil_append]
          exact ih hapart.2 hroom
      | some hop =>
          have hother : hop.destinationAsset ∉ pairs.map AmmPair.destinationAsset := by
            rw [tryHop_destination htry]
            exact hapart.1
          have hlater : ∀ route rest, route ∈ pairs.flatMap
              (provider.branch request visited amount further) →
              (decide (route.dropLast <+: hop :: rest)) = decide (route.dropLast = []) :=
            fun route rest hroute => decide_eq_decide.mpr (prefix_iff_direct hne hroute hother)
          dsimp only
          by_cases hdest : pair.destinationAsset = request.destinationAsset
          · -- the hop ends a route
            have hbranch : provider.branch request visited amount further pair = [[hop]] := by
              rw [branch, htry]
              exact if_pos hdest
            have hlength : (found ++ [hops ++ [hop]]).length = found.length + 1 := by simp
            rw [if_pos hdest, hbranch]
            by_cases hlast : context.maxCandidates ≤ found.length + 1
            · have hone : context.maxCandidates - found.length = 1 := by omega
              rw [if_pos (hlength.symm ▸ hlast), hone, kept_append_of_le one_pos (le_refl 1),
                kept_of_length_le (le_refl 1)]
              have hnone : (pairs.flatMap (provider.branch request visited amount further)).filter
                  (fun later => decide (later.dropLast <+: ([[hop]][1 - 1]?).getD [])) = [] := by
                have hdirect : (pairs.flatMap (provider.branch request visited amount further)).filter
                    (fun route => decide (route.dropLast = [])) = [] :=
                  no_direct hne (hdest ▸ hapart.1)
                rw [← hdirect]
                exact List.filter_congr fun route hroute => hlater route [] hroute
              rw [hnone]
              rfl
            · have hcount : context.maxCandidates - (found.length + 1) =
                  context.maxCandidates - found.length - 1 := by omega
              rw [if_neg (hlength.symm ▸ hlast), ih hapart.2 (by omega), hlength,
                List.singleton_append, kept_cons (by omega), hcount]
              simp
          · -- the search goes on from the hop
            have hbranch : provider.branch request visited amount further pair =
                (further hop).map (hop :: ·) := by
              rw [branch, htry]
              exact if_neg hdest
            have hmap : (kept (context.maxCandidates - found.length) (further hop)).map
                ((hops ++ [hop]) ++ ·) =
                (kept (context.maxCandidates - found.length) ((further hop).map (hop :: ·))).map
                  (hops ++ ·) := by
              rw [kept_map hop (hne hop), List.map_map]
              refine List.map_congr_left fun route _ => ?_
              rw [Function.comp_apply, List.append_assoc, List.singleton_append]
            rw [if_neg hdest, henter, if_neg (by omega), hbranch, hmap]
            by_cases hfew : (further hop).length < context.maxCandidates - found.length
            · have hall : kept (context.maxCandidates - found.length) ((further hop).map (hop :: ·))
                  = (further hop).map (hop :: ·) := kept_of_length_le (by
                rw [List.length_map]
                omega)
              rw [hall, ih hapart.2 (by simp; omega),
                kept_append_of_lt (by rw [List.length_map]; exact hfew)]
              simp [Nat.sub_sub]
            · have hmany : context.maxCandidates - found.length ≤
                  ((further hop).map (hop :: ·)).length := by
                rw [List.length_map]
                omega
              have hlong : context.maxCandidates ≤ (found ++ (kept
                  (context.maxCandidates - found.length) ((further hop).map (hop :: ·))).map
                    (hops ++ ·)).length := by
                rw [List.length_append, List.length_map, kept, List.length_append,
                  List.length_take]
                omega
              have hlast : ((further hop).map (hop :: ·))[context.maxCandidates - found.length - 1]?
                  = some (((further hop).map (hop :: ·))[context.maxCandidates - found.length - 1]) :=
                List.getElem?_eq_getElem _
              rw [walkPairs_full hne hfull hapart.2 hlong,
                kept_append_of_le (by omega) hmany, List.map_append, List.append_assoc, hlast]
              congr 3
              refine List.filter_congr fun route hroute => ?_
              rw [Option.getD_some, List.getElem_map]
              exact (hlater route _ hroute).symm

/-! ## The search -/

/-- The pairs that leave an asset lead to different assets. -/
theorem outgoing_apart (hdistinct : provider.pairs.Nodup) :
    ((provider.outgoing asset).map AmmPair.destinationAsset).Nodup := by
  refine List.Nodup.map_on ?_ (hdistinct.filter _)
  intro pair hpair pair' hpair' heq
  have hsource : pair.sourceAsset = asset := by simpa using (List.mem_filter.mp hpair).2
  have hsource' : pair'.sourceAsset = asset := by simpa using (List.mem_filter.mp hpair').2
  obtain ⟨source, destination⟩ := pair
  obtain ⟨source', destination'⟩ := pair'
  simp only at hsource hsource' heq
  rw [hsource, hsource', heq]

/-- **The search adds what the bound leaves of the routes from where it is.** -/
theorem walk_eq (hdistinct : provider.pairs.Nodup) :
    provider.walk request context remaining asset amount hops visited found =
      if context.maxCandidates ≤ found.length then found
      else found ++ (kept (context.maxCandidates - found.length)
        (provider.routesFrom request remaining asset amount visited)).map (hops ++ ·) := by
  induction remaining generalizing asset amount hops visited found with
  | zero => simp [walk, routesFrom, kept_nil]
  | succ remaining ih =>
      rw [walk]
      by_cases hfull : context.maxCandidates ≤ found.length
      · rw [if_pos hfull, if_pos hfull]
      · rw [if_neg hfull, if_neg hfull]
        exact walkPairs_eq (fun hop route hroute => routesFrom_ne_nil hroute)
          (fun hop found => ih) (outgoing_apart hdistinct) (by omega)

/-- **What comes out**: the first routes, and those that leave the last of them for one more hop. -/
theorem discover_eq (hdistinct : provider.pairs.Nodup)
    (hassets : request.sourceAsset ≠ request.destinationAsset) (hpos : 0 < context.maxCandidates) :
    provider.discover request context =
      kept context.maxCandidates (provider.routes request context) := by
  have hroom : ¬ context.maxCandidates ≤ ([] : List (List RouteHop)).length := by
    rw [List.length_nil]
    omega
  rw [discover, if_neg hassets, walk_eq hdistinct, if_neg hroom]
  simp [routes]

/-! ## The routes are all routes -/

/-- What the search passes over is visited or not allowed. -/
theorem tryHop_iff :
    provider.tryHop request visited amount pair = some hop ↔
      (∃ quote, provider.quoteHop pair amount = some quote ∧
        hop = provider.hopOf pair amount quote) ∧
      pair.destinationAsset ∉ visited ∧ isDisallowed request pair.destinationAsset = false := by
  constructor
  · intro h
    obtain ⟨quote, hquote, hhop, hvisited, hallowed⟩ := tryHop_some h
    exact ⟨⟨quote, hquote, hhop⟩, hvisited, hallowed⟩
  · rintro ⟨⟨quote, hquote, rfl⟩, hvisited, hallowed⟩
    rw [tryHop, hallowed, if_neg (by simpa using hvisited), hquote]
    rfl

theorem isDisallowed_eq_false :
    isDisallowed request asset = false ↔
      asset = request.destinationAsset ∨ Allowed request [asset] := by
  unfold isDisallowed Allowed
  cases request.allowedIntermediates with
  | none => simp
  | some allowed => simp [or_iff_not_imp_left]

/-- Routes are taken apart at their first hop. -/
theorem routeFrom_cons {rest : List RouteHop} (hvisited : visited.Nodup) :
    RouteFrom provider request (remaining + 1) asset amount visited (hop :: rest) ↔
      ∃ pair ∈ provider.outgoing asset,
        provider.tryHop request visited amount pair = some hop ∧
          (rest = [] ∧ pair.destinationAsset = request.destinationAsset ∨
            RouteFrom provider request remaining hop.destinationAsset hop.expectedOutput
              (visited ++ [hop.destinationAsset]) rest ∧
            pair.destinationAsset ≠ request.destinationAsset) := by
  have happend : visited ++ (hop :: rest).map RouteHop.destinationAsset =
      visited ++ [hop.destinationAsset] ++ rest.map RouteHop.destinationAsset := by simp
  constructor
  · rintro ⟨⟨pair, hpair, quote, hsource, hquote, rfl, hquoted⟩, hlength, hreaches, hsimple,
      hallowed⟩
    have hnew : pair.destinationAsset ∉ visited := by
      rw [happend] at hsimple
      have hfirst := hsimple.of_append_left
      rw [List.nodup_append] at hfirst
      intro hmem
      exact hfirst.2.2 _ hmem _ (List.mem_singleton_self _) rfl
    have houtgoing : pair ∈ provider.outgoing asset := List.mem_filter.mpr
      ⟨hpair, by simpa using hsource⟩
    refine ⟨pair, houtgoing, ?_⟩
    cases rest with
    | nil =>
        have hdest : pair.destinationAsset = request.destinationAsset := Option.some.inj hreaches
        refine ⟨tryHop_iff.mpr ⟨⟨quote, hquote, rfl⟩, hnew, ?_⟩, Or.inl ⟨rfl, hdest⟩⟩
        exact isDisallowed_eq_false.mpr (Or.inl hdest)
    | cons next rest =>
        rw [List.map_cons, List.dropLast_cons_of_ne_nil (by simp)] at hallowed
        refine ⟨tryHop_iff.mpr ⟨⟨quote, hquote, rfl⟩, hnew, isDisallowed_eq_false.mpr
          (Or.inr ?_)⟩, Or.inr ⟨⟨hquoted, ?_, ?_, ?_, ?_⟩, ?_⟩⟩
        · intro allowed hsome asset hasset
          obtain rfl := List.mem_singleton.mp hasset
          exact hallowed allowed hsome _ List.mem_cons_self
        · exact Nat.le_of_succ_le_succ hlength
        · rwa [List.getLast?_cons_cons] at hreaches
        · rwa [happend] at hsimple
        · exact fun allowed hsome asset hasset =>
            hallowed allowed hsome asset (List.mem_cons_of_mem _ hasset)
        · -- the destination comes last, and only once
          intro hdest
          rw [List.getLast?_cons_cons] at hreaches
          obtain ⟨last, hlast, hdestination⟩ := Option.map_eq_some_iff.mp hreaches
          have hmem : request.destinationAsset ∈ (next :: rest).map RouteHop.destinationAsset := by
            rw [← hdestination]
            exact List.mem_map_of_mem (List.mem_of_getLast? hlast)
          rw [happend, List.nodup_append] at hsimple
          refine hsimple.2.2 pair.destinationAsset ?_ _ hmem hdest
          exact List.mem_append_right _ (List.mem_singleton_self _)
  · rintro ⟨pair, houtgoing, htry, hrest⟩
    obtain ⟨⟨quote, hquote, rfl⟩, hnew, hpassed⟩ := tryHop_iff.mp htry
    obtain ⟨hpair, hsource⟩ := List.mem_filter.mp houtgoing
    have hsource : pair.sourceAsset = asset := by simpa using hsource
    have hfirst : (visited ++ [pair.destinationAsset]).Nodup := by
      rw [List.nodup_append]
      exact ⟨hvisited, List.nodup_singleton _, by grind⟩
    rcases hrest with ⟨rfl, hdest⟩ | ⟨hroute, hother⟩
    · refine ⟨⟨pair, hpair, quote, hsource, hquote, rfl, trivial⟩, ?_, ?_, hfirst, ?_⟩
      · exact Nat.succ_le_succ (Nat.zero_le _)
      · exact congrArg some hdest
      · intro allowed _ asset hasset
        cases hasset
    · have hne : rest ≠ [] := by
        rintro rfl
        cases hroute.reaches
      obtain ⟨next, rest, rfl⟩ := List.exists_cons_of_ne_nil hne
      refine ⟨⟨pair, hpair, quote, hsource, hquote, rfl, hroute.quoted⟩,
        Nat.succ_le_succ hroute.length, ?_, happend ▸ hroute.simple, ?_⟩
      · rw [List.getLast?_cons_cons]
        exact hroute.reaches
      · rw [List.map_cons, List.dropLast_cons_of_ne_nil (by simp)]
        intro allowed hsome asset hasset
        rcases List.mem_cons.mp hasset with rfl | hasset
        · rcases isDisallowed_eq_false.mp hpassed with hdest | hallowed
          · exact absurd hdest hother
          · exact hallowed allowed hsome _ (List.mem_singleton_self _)
        · exact hroute.allowed allowed hsome asset hasset

/-- **Every route from an asset is enumerated, and nothing else.** -/
theorem mem_routesFrom (hvisited : visited.Nodup) :
    route ∈ provider.routesFrom request remaining asset amount visited ↔
      RouteFrom provider request remaining asset amount visited route := by
  induction remaining generalizing asset amount visited route with
  | zero =>
      rw [routesFrom]
      constructor
      · intro h
        cases h
      · intro h
        have hnil : route = [] := List.length_eq_zero_iff.mp (Nat.le_zero.mp h.length)
        have hreaches := h.reaches
        rw [hnil] at hreaches
        cases hreaches
  | succ remaining ih =>
      rw [routesFrom, List.mem_flatMap]
      have hne : ∀ hop : RouteHop, ∀ route ∈ provider.routesFrom request remaining
          hop.destinationAsset hop.expectedOutput (visited ++ [hop.destinationAsset]),
          route ≠ [] := fun hop route hroute => routesFrom_ne_nil hroute
      have hvisit : ∀ pair hop, provider.tryHop request visited amount pair = some hop →
          (visited ++ [hop.destinationAsset]).Nodup := by
        intro pair hop htry
        have hnew := (tryHop_iff.mp htry).2.1
        rw [tryHop_destination htry, List.nodup_append]
        exact ⟨hvisited, List.nodup_singleton _, by grind⟩
      constructor
      · rintro ⟨pair, hpair, hbranch⟩
        obtain ⟨hop, rest, rfl, htry, hrest⟩ := (mem_branch hne).mp hbranch
        refine (routeFrom_cons hvisited).mpr ⟨pair, hpair, htry, ?_⟩
        rcases hrest with hdirect | ⟨hrest, hother⟩
        · exact Or.inl hdirect
        · exact Or.inr ⟨(ih (hvisit pair hop htry)).mp hrest, hother⟩
      · intro h
        cases route with
        | nil => cases h.reaches
        | cons hop rest =>
            obtain ⟨pair, hpair, htry, hrest⟩ := (routeFrom_cons hvisited).mp h
            refine ⟨pair, hpair, (mem_branch hne).mpr ⟨hop, rest, rfl, htry, ?_⟩⟩
            rcases hrest with hdirect | ⟨hroute, hother⟩
            · exact Or.inl hdirect
            · exact Or.inr ⟨(ih (hvisit pair hop htry)).mpr hroute, hother⟩

/-- No route is enumerated twice. -/
theorem nodup_routesFrom (hdistinct : provider.pairs.Nodup) :
    (provider.routesFrom request remaining asset amount visited).Nodup := by
  induction remaining generalizing asset amount visited with
  | zero => exact List.nodup_nil
  | succ remaining ih =>
      have hne : ∀ hop : RouteHop, ∀ route ∈ provider.routesFrom request remaining
          hop.destinationAsset hop.expectedOutput (visited ++ [hop.destinationAsset]),
          route ≠ [] := fun hop route hroute => routesFrom_ne_nil hroute
      rw [routesFrom, List.nodup_flatMap]
      constructor
      · intro pair _
        unfold branch
        split
        · exact List.nodup_nil
        · split_ifs
          · exact List.nodup_singleton _
          · exact ih.map (List.cons_injective)
      · have hapart : ((provider.outgoing asset).map AmmPair.destinationAsset).Nodup :=
          outgoing_apart hdistinct
        rw [List.Nodup, List.pairwise_map] at hapart
        refine hapart.imp fun {pair pair'} hpair route hroute hroute' => hpair ?_
        obtain ⟨hop, rest, rfl, htry, _⟩ := (mem_branch hne).mp hroute
        obtain ⟨hop', rest', heq, htry', _⟩ := (mem_branch hne).mp hroute'
        rw [← tryHop_destination htry, ← tryHop_destination htry', (List.cons.inj heq).1]

theorem mem_routes : hops ∈ provider.routes request context ↔ provider.IsRoute request context hops :=
  mem_routesFrom (List.nodup_singleton _)

end

/-! ## Exactness -/

/-- **What discovery promises**: at most `maxCandidates` routes, no two of them the same, and all of
them if there are no more. -/
structure Exact : Prop where
  bounded : (provider.discover request context).length ≤ context.maxCandidates
  nodup : (provider.discover request context).Nodup
  sound : ∀ hops ∈ provider.discover request context, provider.IsRoute request context hops
  complete : (∀ found : List (List RouteHop), found.Nodup →
      (∀ hops ∈ found, provider.IsRoute request context hops) →
        found.length ≤ context.maxCandidates) →
    ∀ hops, provider.IsRoute request context hops → hops ∈ provider.discover request context

/-- No route that comes later in the search than the last one wanted leaves it, after some of its
hops, for one more hop. -/
def NoShortcut : Prop :=
  ∀ last, (provider.routes request context)[context.maxCandidates - 1]? = some last →
    ∀ later ∈ (provider.routes request context).drop context.maxCandidates,
      ¬ later.dropLast <+: last

theorem kept_sublist (count : ℕ) (all : List (List RouteHop)) : (kept count all).Sublist all := by
  have hsublist : (kept count all).Sublist (all.take count ++ all.drop count) :=
    (List.Sublist.refl _).append List.filter_sublist
  rwa [List.take_append_drop] at hsublist

/-- Nothing but the wanted number is kept exactly if no later route takes a shortcut. -/
theorem length_kept_le {count : ℕ} {all : List (List RouteHop)} (hpos : 0 < count) :
    (kept count all).length ≤ count ↔
      ∀ last, all[count - 1]? = some last → ∀ later ∈ all.drop count, ¬ later.dropLast <+: last := by
  by_cases hshort : all.length ≤ count
  · rw [kept_of_length_le hshort, List.drop_eq_nil_of_le hshort]
    simp [hshort]
  · have hlast : all[count - 1]? = some all[count - 1] := List.getElem?_eq_getElem _
    rw [kept, List.length_append, List.length_take, min_eq_left (by omega), hlast]
    constructor
    · rintro hlength last heq later hlater hprefix
      cases heq
      have hmem : later ∈ (all.drop count).filter fun later =>
          decide (later.dropLast <+: (some all[count - 1]).getD []) :=
        List.mem_filter.mpr ⟨hlater, decide_eq_true hprefix⟩
      have := List.length_pos_of_mem hmem
      omega
    · intro hnone
      have hempty : ((all.drop count).filter fun later =>
          decide (later.dropLast <+: (some all[count - 1]).getD [])) = [] := by
        rw [List.filter_eq_nil_iff]
        intro later hlater hprefix
        exact hnone _ rfl later hlater (of_decide_eq_true hprefix)
      rw [hempty, List.length_nil]
      omega

/-- **Discovery keeps its promise** exactly if no later route takes a shortcut from the last one
wanted: it finds simple quoted paths only, none twice, and all of them if they are not too many, but
a shortcut is found on top of the wanted number. -/
theorem discover_exact_iff (options : AmmRouteProviderOptions) (request : RouteRequest)
    (context : RouteProviderContext) (hdistinct : options.pairs.Nodup)
    (hassets : request.sourceAsset ≠ request.destinationAsset)
    (hpos : 0 < context.maxCandidates) :
    (AmmRouteProvider.new options).Exact request context ↔
      (AmmRouteProvider.new options).NoShortcut request context := by
  have hpairs : (AmmRouteProvider.new options).pairs.Nodup :=
    (options.pairs.perm_insertionSort pairLe).nodup_iff.mpr hdistinct
  generalize AmmRouteProvider.new options = provider at hpairs
  have hdiscover : provider.discover request context =
      kept context.maxCandidates (provider.routes request context) :=
    discover_eq hpairs hassets hpos
  have hnodup : (provider.routes request context).Nodup := nodup_routesFrom hpairs
  have hsublist := kept_sublist context.maxCandidates (provider.routes request context)
  constructor
  · intro h
    have hbounded := h.bounded
    rw [hdiscover] at hbounded
    exact (length_kept_le hpos).mp hbounded
  · intro h
    refine ⟨?_, ?_, ?_, ?_⟩
    · rw [hdiscover]
      exact (length_kept_le hpos).mpr h
    · rw [hdiscover]
      exact hnodup.sublist hsublist
    · intro hops hmem
      rw [hdiscover] at hmem
      exact mem_routes.mp (hsublist.subset hmem)
    · intro hfew hops hroute
      have hlength := hfew _ hnodup fun hops hmem => mem_routes.mp hmem
      rw [hdiscover, kept_of_length_le hlength]
      exact mem_routes.mpr hroute

section

def sampleQuote : AmmHopQuote := ⟨"5", none, none, none, none, none⟩

/-- A pair to the destination, and a detour that comes first in the order of the search -/
def sampleOptions : AmmRouteProviderOptions where
  venueId := "CAMM"
  pairs := [⟨"USDC", "XLM"⟩, ⟨"USDC", "BTC"⟩, ⟨"BTC", "XLM"⟩]
  quote _ _ := some sampleQuote

def sampleSwap : RouteRequest := ⟨"USDC", "XLM", "10", none, none⟩

theorem discover_exact_two :
    (AmmRouteProvider.new sampleOptions).Exact sampleSwap ⟨3, 2⟩ ∧
      ((AmmRouteProvider.new sampleOptions).discover sampleSwap ⟨3, 2⟩).length = 2 := by
  have hnone : ((AmmRouteProvider.new sampleOptions).routes sampleSwap ⟨3, 2⟩).drop 2 = [] := by
    decide +kernel
  refine ⟨(discover_exact_iff sampleOptions sampleSwap ⟨3, 2⟩ (by decide) (by decide)
    (by decide)).mpr ?_, by decide +kernel⟩
  intro last _ later hlater
  rw [hnone] at hlater
  cases hlater

/-- One candidate is wanted; the detour is found, and then the pair to the destination. -/
theorem two_of_one_candidate : ¬ ∀ (options : AmmRouteProviderOptions) (request : RouteRequest)
    (context : RouteProviderContext), options.pairs.Nodup →
    request.sourceAsset ≠ request.destinationAsset → 0 < context.maxHops →
    0 < context.maxCandidates → (AmmRouteProvider.new options).Exact request context := by
  intro h
  have hbounded := (h sampleOptions sampleSwap ⟨3, 1⟩ (by decide) (by decide) (by decide)
    (by decide)).bounded
  have htwo : ((AmmRouteProvider.new sampleOptions).discover sampleSwap ⟨3, 1⟩).length = 2 := by
    decide +kernel
  rw [htwo] at hbounded
  exact absurd hbounded (by decide)

end

end AmmRouteProvider

end StellarAgent.Routing
