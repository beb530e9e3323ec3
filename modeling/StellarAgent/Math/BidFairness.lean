import StellarAgent.Lib.CodeUnits
import StellarAgent.Lib.Results
import StellarAgent.Math.BidAgreement

set_option autoImplicit false

/-! # Fair ranking of bids

`rankBids` of `packages/core/src/math/bid.ts` over the values that `BigNumber` reads. Every score is
within 0 and 100, the ranking does not depend on the order of the bids, and a better bid is not
ranked lower, if no weight is negative. Only the sum of the weights is checked: with a negative one
that sum is still 1, and some bid loses by getting better (`rankBids_fair_iff`).
-/

namespace StellarAgent.Math

open Lib Decimal

/-! ## Scores of values -/

/-- The values of the fields of a bid -/
structure BidValues where
  price : ℚ
  reputation : ℚ
  latency : ℚ
  success_rate : ℚ

structure WeightValues where
  price : ℚ
  reputation : ℚ
  latency : ℚ
  reliability : ℚ

def WeightValues.total (w : WeightValues) : ℚ :=
  w.price + w.reputation + w.latency + w.reliability

structure WeightValues.Nonneg (w : WeightValues) : Prop where
  price : 0 ≤ w.price
  reputation : 0 ≤ w.reputation
  latency : 0 ≤ w.latency
  reliability : 0 ≤ w.reliability

def BidValues.scores (maxPrice maxLatency : ℚ) (v : BidValues) : SubScores where
  price := ratioOf v.price maxPrice
  reputation := TypeScript.clamp v.reputation 0 100
  latency := ratioOf v.latency maxLatency
  reliability := TypeScript.clamp (v.success_rate * 100) 0 100

def SubScores.weighted (w : WeightValues) (s : SubScores) : ℚ :=
  s.price * w.price + s.reputation * w.reputation + s.latency * w.latency +
    s.reliability * w.reliability

/-- Each sub-score is a percentage. -/
structure SubScores.InRange (s : SubScores) : Prop where
  price : 0 ≤ s.price ∧ s.price ≤ 100
  reputation : 0 ≤ s.reputation ∧ s.reputation ≤ 100
  latency : 0 ≤ s.latency ∧ s.latency ≤ 100
  reliability : 0 ≤ s.reliability ∧ s.reliability ≤ 100

/-- The second bid is cheaper and faster, or its agent does better; nothing is worse. -/
structure BidValues.Better (v v' : BidValues) : Prop where
  price : v'.price ≤ v.price
  reputation : v.reputation ≤ v'.reputation
  latency : v'.latency ≤ v.latency
  success_rate : v.success_rate ≤ v'.success_rate

section

variable {w : WeightValues} {v v' : BidValues} {s s' : SubScores} {maxPrice maxLatency : ℚ}

theorem clamp_range (q : ℚ) : 0 ≤ TypeScript.clamp q 0 100 ∧ TypeScript.clamp q 0 100 ≤ 100 :=
  ⟨le_min (le_max_right q 0) (by norm_num), min_le_right _ _⟩

theorem clamp_mono {p q : ℚ} (h : p ≤ q) :
    TypeScript.clamp p 0 100 ≤ TypeScript.clamp q 0 100 :=
  min_le_min_right 100 (max_le_max_right 0 h)

theorem clamp_of_range {q : ℚ} (h : 0 ≤ q ∧ q ≤ 100) : TypeScript.clamp q 0 100 = q := by
  rw [TypeScript.clamp, max_eq_left h.1, min_eq_left h.2]

theorem ratioOf_range (x max : ℚ) : 0 ≤ ratioOf x max ∧ ratioOf x max ≤ 100 := by
  unfold ratioOf
  split_ifs
  · norm_num
  · exact clamp_range _

/-- A smaller share of the normaliser scores more, in spite of the places that are cut off. -/
theorem ratioOf_antitone {x y max : ℚ} (hmax : 0 ≤ max) (h : x ≤ y) :
    ratioOf y max ≤ ratioOf x max := by
  unfold ratioOf
  split_ifs with hzero
  · exact le_rfl
  · have hratio : TypeScript.dividedBy x max ≤ TypeScript.dividedBy y max :=
      truncated_mono _ (div_le_div_of_nonneg_right h hmax)
    exact clamp_mono (by linarith)

theorem scores_range (maxPrice maxLatency : ℚ) (v : BidValues) :
    (v.scores maxPrice maxLatency).InRange :=
  ⟨ratioOf_range _ _, clamp_range _, ratioOf_range _ _, clamp_range _⟩

theorem weighted_range (hw : w.Nonneg) (htotal : w.total = 1) (hs : s.InRange) :
    0 ≤ s.weighted w ∧ s.weighted w ≤ 100 := by
  have hprice := mul_le_mul_of_nonneg_right hs.price.2 hw.price
  have hreputation := mul_le_mul_of_nonneg_right hs.reputation.2 hw.reputation
  have hlatency := mul_le_mul_of_nonneg_right hs.latency.2 hw.latency
  have hreliability := mul_le_mul_of_nonneg_right hs.reliability.2 hw.reliability
  have hprice' := mul_nonneg hs.price.1 hw.price
  have hreputation' := mul_nonneg hs.reputation.1 hw.reputation
  have hlatency' := mul_nonneg hs.latency.1 hw.latency
  have hreliability' := mul_nonneg hs.reliability.1 hw.reliability
  unfold WeightValues.total at htotal
  unfold SubScores.weighted
  constructor
  · linarith
  · linarith

/-- **A better bid has no smaller weighted score** if no weight is negative. -/
theorem weighted_mono (hw : w.Nonneg) (hprice : 0 ≤ maxPrice) (hlatency : 0 ≤ maxLatency)
    (h : v.Better v') :
    (v.scores maxPrice maxLatency).weighted w ≤ (v'.scores maxPrice maxLatency).weighted w := by
  have hsuccess : v.success_rate * 100 ≤ v'.success_rate * 100 :=
    mul_le_mul_of_nonneg_right h.success_rate (by norm_num)
  unfold SubScores.weighted
  refine add_le_add (add_le_add (add_le_add ?_ ?_) ?_) ?_
  · exact mul_le_mul_of_nonneg_right (ratioOf_antitone hprice h.price) hw.price
  · exact mul_le_mul_of_nonneg_right (clamp_mono h.reputation) hw.reputation
  · exact mul_le_mul_of_nonneg_right (ratioOf_antitone hlatency h.latency) hw.latency
  · exact mul_le_mul_of_nonneg_right (clamp_mono hsuccess) hw.reliability

theorem truncated_range {q : ℚ} (h : 0 ≤ q ∧ q ≤ 100) :
    0 ≤ truncated 4 q ∧ truncated 4 q ≤ 100 := by
  have hzero : truncated 4 0 = 0 := by simp [truncated]
  have hmax := truncated_le_max 4 q
  rw [max_eq_left h.1] at hmax
  exact ⟨hzero ▸ truncated_mono 4 h.1, hmax.trans h.2⟩

end

/-! ## What `rankBids` computes -/

section

variable (bigNumber : String → Option ℚ)

/-- The value that `BigNumber` reads of a text -/
def read (s : String) : ℚ := (bigNumber s).getD 0

def valuesOf (bid : AgentBid) : BidValues where
  price := read bigNumber bid.price
  reputation := read bigNumber bid.reputation
  latency := read bigNumber bid.estimated_latency_seconds
  success_rate := read bigNumber bid.success_rate

def weightValues (weights : BidWeights) : WeightValues where
  price := read bigNumber weights.price
  reputation := read bigNumber weights.reputation
  latency := read bigNumber weights.latency
  reliability := read bigNumber weights.reliability

/-- A decimal that is not negative -/
def NonnegDecimal (s : String) : Prop := (bigNumber s).isSome = true ∧ 0 ≤ read bigNumber s

/-- A bid whose fields are decimals, none of them negative -/
structure DecimalBid (bid : AgentBid) : Prop where
  price : NonnegDecimal bigNumber bid.price
  reputation : NonnegDecimal bigNumber bid.reputation
  latency : NonnegDecimal bigNumber bid.estimated_latency_seconds
  success_rate : NonnegDecimal bigNumber bid.success_rate

/-- A bid whose fields are decimals -/
structure ReadableBid (bid : AgentBid) : Prop where
  price : (bigNumber bid.price).isSome = true
  reputation : (bigNumber bid.reputation).isSome = true
  latency : (bigNumber bid.estimated_latency_seconds).isSome = true
  success_rate : (bigNumber bid.success_rate).isSome = true

/-- The largest value of a field -/
def maxOf (bids : List AgentBid) (field : AgentBid → String) : ℚ :=
  largest (bids.map fun bid => read bigNumber (field bid))

/-- The sub-scores of a bid among others -/
def scoresOf (bids : List AgentBid) (bid : AgentBid) : SubScores :=
  (valuesOf bigNumber bid).scores (truncated 7 (maxOf bigNumber bids AgentBid.price))
    (truncated 7 (maxOf bigNumber bids AgentBid.estimated_latency_seconds))

def sumOf (bids : List AgentBid) (weights : BidWeights) (bid : AgentBid) : ℚ :=
  (scoresOf bigNumber bids bid).weighted (weightValues bigNumber weights)

def scoredOf (bids : List AgentBid) (weights : BidWeights) (bid : AgentBid) : ScoredBid where
  agent_address := bid.agent_address
  score := TypeScript.fixed4 (sumOf bigNumber bids weights bid)
  breakdown := {
    price_score := TypeScript.fixed4 (scoresOf bigNumber bids bid).price
    reputation_score := TypeScript.fixed4 (scoresOf bigNumber bids bid).reputation
    latency_score := TypeScript.fixed4 (scoresOf bigNumber bids bid).latency
    reliability_score := TypeScript.fixed4 (scoresOf bigNumber bids bid).reliability }

end

section

variable {bigNumber : String → Option ℚ} {bids : List AgentBid} {weights : BidWeights}
  {bid : AgentBid} {s : String}

theorem DecimalBid.readable (h : DecimalBid bigNumber bid) : ReadableBid bigNumber bid :=
  ⟨h.price.1, h.reputation.1, h.latency.1, h.success_rate.1⟩

theorem bn_read (h : (bigNumber s).isSome = true) :
    TypeScript.bn bigNumber s = .ok (read bigNumber s) := by
  obtain ⟨x, hx⟩ := Option.isSome_iff_exists.mp h
  rw [TypeScript.bn, read, hx]
  rfl

theorem bn_ok {x : ℚ} (h : TypeScript.bn bigNumber s = .ok x) :
    (bigNumber s).isSome = true ∧ read bigNumber s = x := by
  unfold TypeScript.bn at h
  split at h
  case h_1 y hy =>
    obtain rfl := Except.ok.inj h
    rw [read, hy]
    exact ⟨rfl, rfl⟩
  case h_2 => cases h

/-- Accepted weights are decimals with sum 1. -/
structure DecimalWeights (bigNumber : String → Option ℚ) (weights : BidWeights) : Prop where
  price : (bigNumber weights.price).isSome = true
  reputation : (bigNumber weights.reputation).isSome = true
  latency : (bigNumber weights.latency).isSome = true
  reliability : (bigNumber weights.reliability).isSome = true
  total : (weightValues bigNumber weights).total = 1

theorem weightSum_ok : TypeScript.weightSum bigNumber weights = .ok 1 ↔
    DecimalWeights bigNumber weights := by
  unfold TypeScript.weightSum
  constructor
  · intro h
    obtain ⟨price, hprice, h⟩ := bind_eq_ok.mp h
    obtain ⟨reputation, hreputation, h⟩ := bind_eq_ok.mp h
    obtain ⟨latency, hlatency, h⟩ := bind_eq_ok.mp h
    obtain ⟨reliability, hreliability, h⟩ := bind_eq_ok.mp h
    obtain ⟨price_some, rfl⟩ := bn_ok hprice
    obtain ⟨reputation_some, rfl⟩ := bn_ok hreputation
    obtain ⟨latency_some, rfl⟩ := bn_ok hlatency
    obtain ⟨reliability_some, rfl⟩ := bn_ok hreliability
    exact ⟨price_some, reputation_some, latency_some, reliability_some, Except.ok.inj h⟩
  · intro h
    rw [bn_read h.price, bn_read h.reputation, bn_read h.latency, bn_read h.reliability]
    exact congrArg Except.ok h.total

theorem maxField_read {field : AgentBid → String}
    (h : ∀ bid ∈ bids, (bigNumber (field bid)).isSome = true) :
    TypeScript.maxField bigNumber bids field = .ok (fixedText 7 (maxOf bigNumber bids field)) := by
  have hvalues := mapM_ok fun other hother => bn_read (h other hother)
  rw [TypeScript.maxField, hvalues]
  rfl

theorem ratioScore_read (hreads : ReadsDecimals bigNumber) (h : (bigNumber s).isSome = true)
    (q : ℚ) : TypeScript.ratioScore bigNumber s (fixedText 7 q) =
      .ok (ratioOf (read bigNumber s) (truncated 7 q)) := by
  rw [TypeScript.ratioScore, typeScript_bn_fixedText hreads q (by decide) (by decide),
    ok_bind, ratioOf]
  by_cases hzero : truncated 7 q = 0
  · rw [if_pos hzero, if_pos hzero]
    rfl
  · rw [if_neg hzero, if_neg hzero, bn_read h, ok_bind, TypeScript.div, if_neg hzero]
    rfl

variable (bids) in
theorem scoreBid_read (hreads : ReadsDecimals bigNumber) (hweights : DecimalWeights bigNumber weights)
    (hbid : ReadableBid bigNumber bid) :
    TypeScript.scoreBid bigNumber bid (fixedText 7 (maxOf bigNumber bids AgentBid.price))
      (fixedText 7 (maxOf bigNumber bids AgentBid.estimated_latency_seconds)) weights =
        .ok (scoredOf bigNumber bids weights bid) := by
  rw [TypeScript.scoreBid, weightSum_ok.mpr hweights, ok_bind, if_neg (by simp),
    ratioScore_read hreads hbid.price, ok_bind, bn_read hbid.reputation, ok_bind,
    ratioScore_read hreads hbid.latency, ok_bind, bn_read hbid.success_rate, ok_bind,
    bn_read hweights.price, ok_bind, bn_read hweights.reputation, ok_bind,
    bn_read hweights.latency, ok_bind, bn_read hweights.reliability, ok_bind]
  rfl

/-- **The ranking**: the scored bids, sorted -/
theorem rankBids_read (hreads : ReadsDecimals bigNumber) (hne : bids ≠ [])
    (hweights : DecimalWeights bigNumber weights) (hbids : ∀ bid ∈ bids, ReadableBid bigNumber bid) :
    TypeScript.rankBids bigNumber bids weights = .ok
      ((bids.map (scoredOf bigNumber bids weights)).insertionSort
        fun a b => TypeScript.compareScored bigNumber a b ≤ 0) := by
  have hprice := maxField_read fun bid hbid => (hbids bid hbid).price
  have hlatency := maxField_read fun bid hbid => (hbids bid hbid).latency
  have hscored := mapM_ok fun bid hbid => scoreBid_read bids hreads hweights (hbids bid hbid)
  rw [TypeScript.rankBids, if_neg (by simpa using hne), hprice, ok_bind, hlatency,
    ok_bind, hscored]
  rfl

/-- **What is ranked is readable**: the weights are decimals with sum 1, and so are all fields. -/
theorem rankBids_readable {ranking : List ScoredBid} (hne : bids ≠ [])
    (h : TypeScript.rankBids bigNumber bids weights = .ok ranking) :
    DecimalWeights bigNumber weights ∧ ∀ bid ∈ bids, ReadableBid bigNumber bid := by
  have hfield : ∀ {field : AgentBid → String} {text : String},
      TypeScript.maxField bigNumber bids field = .ok text →
      ∀ bid ∈ bids, (bigNumber (field bid)).isSome = true := by
    intro field text hmax bid hbid
    obtain ⟨values, hvalues, -⟩ := bind_eq_ok.mp hmax
    obtain ⟨x, hx⟩ := exists_of_mapM hvalues bid hbid
    exact (bn_ok hx).1
  rw [TypeScript.rankBids, if_neg (by simpa using hne)] at h
  obtain ⟨maxBid, hprice, h⟩ := bind_eq_ok.mp h
  obtain ⟨maxLatency, hlatency, h⟩ := bind_eq_ok.mp h
  obtain ⟨scored, hscored, -⟩ := bind_eq_ok.mp h
  have hscore : ∀ bid ∈ bids, TypeScript.weightSum bigNumber weights = .ok 1 ∧
      ReadableBid bigNumber bid := by
    intro bid hbid
    obtain ⟨result, hresult⟩ := exists_of_mapM hscored bid hbid
    obtain ⟨total, htotal, hresult⟩ := bind_eq_ok.mp hresult
    split at hresult
    · cases hresult
    case isFalse hone =>
      obtain ⟨price, -, hresult⟩ := bind_eq_ok.mp hresult
      obtain ⟨reputation, hreputation, hresult⟩ := bind_eq_ok.mp hresult
      obtain ⟨latency, -, hresult⟩ := bind_eq_ok.mp hresult
      obtain ⟨success, hsuccess, -⟩ := bind_eq_ok.mp hresult
      refine ⟨not_not.mp hone ▸ htotal, hfield hprice bid hbid, (bn_ok hreputation).1,
        hfield hlatency bid hbid, (bn_ok hsuccess).1⟩
  obtain ⟨bid, hbid⟩ := List.exists_mem_of_ne_nil bids hne
  exact ⟨weightSum_ok.mp (hscore bid hbid).1, fun bid hbid => (hscore bid hbid).2⟩

/-- What is written of a score is read as the score, cut off. -/
theorem read_fixed4 (hreads : ReadsDecimals bigNumber) (q : ℚ) :
    bigNumber (TypeScript.fixed4 q) = some (truncated 4 q) := by
  rw [TypeScript.fixed4, hreads.text _ 4 (by decide) (by decide), truncated_truncated]

end

/-! ## The order of a ranking -/

section

variable {bigNumber : String → Option ℚ} {bids bids' : List AgentBid} {weights : BidWeights}
  {bid : AgentBid}

theorem utf16_injective : Function.Injective TypeScript.utf16 := fun _ _ h =>
  String.toList_inj.mp (flatMap_codeUnits_injective h)

variable (bigNumber) in
/-- A scored bid comes before another, or at the same place: it scores more, or as much and its
address is not greater. -/
def RanksFirst (a b : ScoredBid) : Prop :=
  read bigNumber b.score < read bigNumber a.score ∨
    (read bigNumber a.score = read bigNumber b.score ∧
      TypeScript.utf16 a.agent_address ≤ TypeScript.utf16 b.agent_address)

instance : DecidableRel (RanksFirst bigNumber) := fun _ _ =>
  inferInstanceAs (Decidable (_ ∨ _))

instance : Std.Total (RanksFirst bigNumber) where
  total a b := by
    unfold RanksFirst
    rcases lt_trichotomy (read bigNumber a.score) (read bigNumber b.score) with h | h | h
    · exact Or.inr (Or.inl h)
    · rcases le_total (TypeScript.utf16 a.agent_address) (TypeScript.utf16 b.agent_address) with
        haddress | haddress
      · exact Or.inl (Or.inr ⟨h, haddress⟩)
      · exact Or.inr (Or.inr ⟨h.symm, haddress⟩)
    · exact Or.inl (Or.inl h)

instance : IsTrans ScoredBid (RanksFirst bigNumber) where
  trans _ _ _ hab hbc := by
    unfold RanksFirst at hab hbc ⊢
    rcases hab with hab | ⟨hab, haddress⟩
    · rcases hbc with hbc | ⟨hbc, -⟩
      · exact Or.inl (hbc.trans hab)
      · exact Or.inl (hbc ▸ hab)
    · rcases hbc with hbc | ⟨hbc, haddress'⟩
      · exact Or.inl (hab ▸ hbc)
      · exact Or.inr ⟨hab.trans hbc, haddress.trans haddress'⟩

/-- Scored bids of which each comes before the other have the same address. -/
theorem RanksFirst.antisymm {a b : ScoredBid} (hab : RanksFirst bigNumber a b)
    (hba : RanksFirst bigNumber b a) : a.agent_address = b.agent_address := by
  unfold RanksFirst at hab hba
  rcases hab with hab | ⟨heq, hab⟩
  · rcases hba with hba | ⟨heq, -⟩
    · exact absurd hba (not_lt_of_gt hab)
    · exact absurd heq (ne_of_lt hab)
  · rcases hba with hba | ⟨-, hba⟩
    · exact absurd heq (ne_of_gt hba).symm
    · exact utf16_injective (le_antisymm hab hba)

/-- The comparator, on different addresses -/
theorem compareScored_iff {a b : ScoredBid} (hne : a.agent_address ≠ b.agent_address) :
    TypeScript.compareScored bigNumber a b ≤ 0 ↔ RanksFirst bigNumber a b := by
  unfold TypeScript.compareScored RanksFirst read
  dsimp only
  rcases lt_trichotomy ((bigNumber a.score).getD 0) ((bigNumber b.score).getD 0) with h | h | h
  · rw [if_neg (not_lt_of_gt h), if_pos h]
    exact iff_of_false (by decide) fun hor =>
      hor.elim (not_lt_of_gt h) fun hand => absurd hand.1 (ne_of_lt h)
  · rw [if_neg h.not_gt, if_neg h.not_lt]
    by_cases hless : TypeScript.utf16 a.agent_address < TypeScript.utf16 b.agent_address
    · rw [if_pos hless]
      exact iff_of_true (by decide) (Or.inr ⟨h, hless.le⟩)
    · rw [if_neg hless]
      refine iff_of_false (by decide) fun hor => hor.elim h.not_gt fun hand => hless ?_
      exact lt_of_le_of_ne hand.2 fun heq => hne (utf16_injective heq)
  · rw [if_pos h]
    exact iff_of_true (by decide) (Or.inl h)

/-- **The ranking is the list of scored bids in the order of scores and addresses.** -/
theorem rankBids_sorted (hreads : ReadsDecimals bigNumber) (hne : bids ≠ [])
    (haddress : (bids.map AgentBid.agent_address).Nodup)
    (hweights : DecimalWeights bigNumber weights) (hbids : ∀ bid ∈ bids, ReadableBid bigNumber bid) :
    TypeScript.rankBids bigNumber bids weights = .ok
      ((bids.map (scoredOf bigNumber bids weights)).insertionSort (RanksFirst bigNumber)) := by
  have hdistinct : bids.Pairwise fun x y => x.agent_address ≠ y.agent_address :=
    List.pairwise_map.mp haddress
  rw [rankBids_read hreads hne hweights hbids,
    insertionSort_congr (List.pairwise_map.mpr (hdistinct.imp fun hxy => compareScored_iff hxy))]

/-- The loop that keeps the larger value ends with a largest one. -/
theorem foldl_larger (values : List ℚ) (current : ℚ) :
    values.foldl (fun m v => if v > m then v else m) current ∈ current :: values ∧
      ∀ v ∈ current :: values, v ≤ values.foldl (fun m v => if v > m then v else m) current := by
  induction values generalizing current with
  | nil => simp
  | cons next values ih =>
      have hstep : next ≤ (if next > current then next else current) ∧
          current ≤ (if next > current then next else current) := by
        split_ifs with h
        · exact ⟨le_rfl, le_of_lt h⟩
        · exact ⟨not_lt.mp h, le_rfl⟩
      obtain ⟨hmem, hle⟩ := ih (if next > current then next else current)
      rw [List.foldl_cons]
      refine ⟨?_, fun v hv => ?_⟩
      · rcases List.mem_cons.mp hmem with heq | hmem
        · rw [heq]
          split_ifs <;> simp
        · exact List.mem_cons_of_mem _ (List.mem_cons_of_mem _ hmem)
      · have hfirst := hle _ List.mem_cons_self
        rcases List.mem_cons.mp hv with rfl | hv
        · exact hstep.2.trans hfirst
        · rcases List.mem_cons.mp hv with rfl | hv
          · exact hstep.1.trans hfirst
          · exact hle v (List.mem_cons_of_mem _ hv)

theorem largest_spec {values : List ℚ} (hne : values ≠ []) :
    largest values ∈ values ∧ ∀ v ∈ values, v ≤ largest values := by
  obtain ⟨first, rest, rfl⟩ := List.exists_cons_of_ne_nil hne
  exact foldl_larger rest first

/-- Where the largest value stands does not matter. -/
theorem largest_perm {values values' : List ℚ} (h : values'.Perm values) :
    largest values' = largest values := by
  by_cases hne : values = []
  · subst hne
    rw [h.eq_nil]
  · have hne' : values' ≠ [] := fun hnil => hne (hnil ▸ h.symm).eq_nil
    obtain ⟨hmem, hle⟩ := largest_spec hne
    obtain ⟨hmem', hle'⟩ := largest_spec hne'
    exact le_antisymm (hle _ (h.subset hmem')) (hle' _ (h.symm.subset hmem))

theorem scoredOf_perm (h : bids'.Perm bids) :
    scoredOf bigNumber bids' weights = scoredOf bigNumber bids weights := by
  have hmax : ∀ field, maxOf bigNumber bids' field = maxOf bigNumber bids field :=
    fun field => largest_perm (h.map _)
  funext bid
  unfold scoredOf sumOf scoresOf
  rw [hmax, hmax]

/-- **The order of the bids does not matter.** -/
theorem rankBids_perm (hreads : ReadsDecimals bigNumber) (hne : bids ≠ [])
    (haddress : (bids.map AgentBid.agent_address).Nodup)
    (hweights : DecimalWeights bigNumber weights) (hbids : ∀ bid ∈ bids, ReadableBid bigNumber bid)
    (hperm : bids'.Perm bids) :
    TypeScript.rankBids bigNumber bids' weights = TypeScript.rankBids bigNumber bids weights := by
  have hne' : bids' ≠ [] := fun h => hne (h ▸ hperm.symm).eq_nil
  have haddress' : (bids'.map AgentBid.agent_address).Nodup :=
    (hperm.map AgentBid.agent_address).nodup_iff.mpr haddress
  rw [rankBids_sorted hreads hne haddress hweights hbids,
    rankBids_sorted hreads hne' haddress' hweights fun bid hbid => hbids bid (hperm.subset hbid),
    scoredOf_perm hperm]
  congr 1
  refine insertionSort_eq_of_perm (hperm.map _) fun a ha b hb hab hba => ?_
  obtain ⟨x, hx, rfl⟩ := List.mem_map.mp ha
  obtain ⟨y, hy, rfl⟩ := List.mem_map.mp hb
  rw [List.inj_on_of_nodup_map haddress' hx hy (hab.antisymm hba)]

theorem maxOf_nonneg {field : AgentBid → String} (hne : bids ≠ [])
    (h : ∀ bid ∈ bids, 0 ≤ read bigNumber (field bid)) : 0 ≤ maxOf bigNumber bids field := by
  have hvalues : bids.map (fun bid => read bigNumber (field bid)) ≠ [] := by simpa using hne
  obtain ⟨bid, hbid, hvalue⟩ := List.mem_map.mp (largest_spec hvalues).1
  rw [maxOf, ← hvalue]
  exact h bid hbid

end

/-! ## Fairness -/

section

variable {bigNumber : String → Option ℚ} {bids : List AgentBid} {weights : BidWeights}

/-- All texts of a scored bid are numbers within 0 and 100. -/
def ScoredBid.InRange (bigNumber : String → Option ℚ) (scored : ScoredBid) : Prop :=
  ∀ text ∈ [scored.score, scored.breakdown.price_score, scored.breakdown.reputation_score,
    scored.breakdown.latency_score, scored.breakdown.reliability_score],
    ∃ x, bigNumber text = some x ∧ 0 ≤ x ∧ x ≤ 100

/-- The place of an address in a ranking -/
def rankOf (address : String) (ranking : List ScoredBid) : ℕ :=
  ranking.findIdx fun scored => scored.agent_address = address

/-- The bid of the same agent, with better values -/
structure Improves (bigNumber : String → Option ℚ) (bid better : AgentBid) : Prop where
  address : better.agent_address = bid.agent_address
  decimal : DecimalBid bigNumber better
  values : (valuesOf bigNumber bid).Better (valuesOf bigNumber better)

/-- **Fair ranking** of the bids: its scores are percentages, it is a permutation of the bids that
does not depend on their order, and a bid that gets better, while the largest price and latency stay,
gets no smaller score and no later place. -/
structure Fair (bigNumber : String → Option ℚ) (bids : List AgentBid) (weights : BidWeights) :
    Prop where
  ranked : ∃ ranking, TypeScript.rankBids bigNumber bids weights = .ok ranking ∧
    (ranking.map ScoredBid.agent_address).Perm (bids.map AgentBid.agent_address) ∧
    ∀ scored ∈ ranking, scored.InRange bigNumber
  independent : ∀ bids', bids'.Perm bids →
    TypeScript.rankBids bigNumber bids' weights = TypeScript.rankBids bigNumber bids weights
  monotone : ∀ front bid rest better, bids = front ++ bid :: rest → Improves bigNumber bid better →
    maxOf bigNumber (front ++ better :: rest) AgentBid.price =
      maxOf bigNumber bids AgentBid.price →
    maxOf bigNumber (front ++ better :: rest) AgentBid.estimated_latency_seconds =
      maxOf bigNumber bids AgentBid.estimated_latency_seconds →
    ∃ ranking ranking', TypeScript.rankBids bigNumber bids weights = .ok ranking ∧
      TypeScript.rankBids bigNumber (front ++ better :: rest) weights = .ok ranking' ∧
      rankOf bid.agent_address ranking' ≤ rankOf bid.agent_address ranking ∧
      ∀ scored ∈ ranking, scored.agent_address = bid.agent_address →
        ∀ scored' ∈ ranking', scored'.agent_address = bid.agent_address →
          read bigNumber scored.score ≤ read bigNumber scored'.score

theorem scoredOf_inRange (hreads : ReadsDecimals bigNumber)
    (hweights : DecimalWeights bigNumber weights) (hnonneg : (weightValues bigNumber weights).Nonneg)
    (bid : AgentBid) : (scoredOf bigNumber bids weights bid).InRange bigNumber := by
  have hscores : (scoresOf bigNumber bids bid).InRange := scores_range _ _ _
  have hsum : 0 ≤ sumOf bigNumber bids weights bid ∧ sumOf bigNumber bids weights bid ≤ 100 :=
    weighted_range hnonneg hweights.total hscores
  have hread : ∀ q : ℚ, 0 ≤ q ∧ q ≤ 100 →
      ∃ x, bigNumber (TypeScript.fixed4 q) = some x ∧ 0 ≤ x ∧ x ≤ 100 :=
    fun q hq => ⟨truncated 4 q, read_fixed4 hreads q, truncated_range hq⟩
  intro text htext
  simp only [List.mem_cons, List.not_mem_nil, or_false] at htext
  rcases htext with rfl | rfl | rfl | rfl | rfl
  · exact hread _ hsum
  · exact hread _ hscores.price
  · exact hread _ hscores.reputation
  · exact hread _ hscores.latency
  · exact hread _ hscores.reliability

/-- The score of a scored bid, as it is read -/
theorem read_score (hreads : ReadsDecimals bigNumber) (bid : AgentBid) :
    read bigNumber (scoredOf bigNumber bids weights bid).score =
      truncated 4 (sumOf bigNumber bids weights bid) := by
  have hread := read_fixed4 hreads (sumOf bigNumber bids weights bid)
  show (bigNumber (TypeScript.fixed4 (sumOf bigNumber bids weights bid))).getD 0 = _
  rw [hread]
  rfl

variable (bigNumber) in
/-- The place of a bid is the number of other bids that rank before it. -/
theorem rankOf_sorted (haddress : (bids.map AgentBid.agent_address).Nodup) {bid : AgentBid}
    (hbid : bid ∈ bids) (f : AgentBid → ScoredBid)
    (hf : ∀ bid, (f bid).agent_address = bid.agent_address) :
    rankOf bid.agent_address ((bids.map f).insertionSort (RanksFirst bigNumber)) =
      bids.countP fun other => decide (RanksFirst bigNumber (f other) (f bid)) &&
        !decide (other.agent_address = bid.agent_address) := by
  have hsorted := List.pairwise_insertionSort (RanksFirst bigNumber) (bids.map f)
  have hperm := List.perm_insertionSort (RanksFirst bigNumber) (bids.map f)
  have hsame : ∀ scored ∈ (bids.map f).insertionSort (RanksFirst bigNumber),
      scored.agent_address = bid.agent_address → scored = f bid := by
    intro scored hscored heq
    obtain ⟨other, hother, rfl⟩ := List.mem_map.mp (hperm.subset hscored)
    rw [hf] at heq
    rw [List.inj_on_of_nodup_map haddress hother hbid heq]
  rw [rankOf, findIdx_sorted hsorted (hperm.symm.subset (List.mem_map_of_mem hbid)),
    hperm.countP_eq, List.countP_map]
  · refine List.countP_congr fun other _ => ?_
    simp [hf]
  · intro scored hscored
    rw [decide_eq_true_eq]
    exact ⟨hsame scored hscored, fun heq => heq ▸ hf bid⟩
  · intro scored hscored hab hba
    exact hsame scored hscored ((hab.antisymm hba).symm.trans (hf bid))

/-- What ranks before a bid with a larger score ranks before one with a smaller score. -/
theorem RanksFirst.of_le {a b b' : ScoredBid} (h : RanksFirst bigNumber a b')
    (haddress : b'.agent_address = b.agent_address)
    (hscore : read bigNumber b.score ≤ read bigNumber b'.score) : RanksFirst bigNumber a b := by
  unfold RanksFirst at h ⊢
  rcases h with h | ⟨heq, hle⟩
  · exact Or.inl (hscore.trans_lt h)
  · rw [haddress] at hle
    rw [← heq] at hscore
    rcases hscore.lt_or_eq with hlt | heq'
    · exact Or.inl hlt
    · exact Or.inr ⟨heq'.symm, hle⟩

/-- **With weights that are not negative the ranking is fair.** -/
theorem fair_of_nonneg (hreads : ReadsDecimals bigNumber)
    (hweights : DecimalWeights bigNumber weights) (hnonneg : (weightValues bigNumber weights).Nonneg)
    (hne : bids ≠ []) (haddress : (bids.map AgentBid.agent_address).Nodup)
    (hbids : ∀ bid ∈ bids, DecimalBid bigNumber bid) : Fair bigNumber bids weights := by
  have hreadable : ∀ bid ∈ bids, ReadableBid bigNumber bid :=
    fun bid hbid => (hbids bid hbid).readable
  refine ⟨?_, fun bids' hperm => rankBids_perm hreads hne haddress hweights hreadable hperm, ?_⟩
  · refine ⟨_, rankBids_sorted hreads hne haddress hweights hreadable, ?_, fun scored hscored => ?_⟩
    · have hsorted := (List.perm_insertionSort (RanksFirst bigNumber)
        (bids.map (scoredOf bigNumber bids weights))).map ScoredBid.agent_address
      rw [List.map_map] at hsorted
      exact hsorted
    · obtain ⟨bid, -, rfl⟩ := List.mem_map.mp ((List.mem_insertionSort _).mp hscored)
      exact scoredOf_inRange hreads hweights hnonneg bid
  · rintro front bid rest better rfl himproves hprice hlatency
    let f := scoredOf bigNumber (front ++ bid :: rest) weights
    have hf : scoredOf bigNumber (front ++ better :: rest) weights = f := by
      funext other
      unfold f scoredOf sumOf scoresOf
      rw [hprice, hlatency]
    have haddress' : ((front ++ better :: rest).map AgentBid.agent_address).Nodup := by
      rw [List.map_append, List.map_cons] at haddress ⊢
      rw [himproves.address]
      exact haddress
    have hbids' : ∀ other ∈ front ++ better :: rest, DecimalBid bigNumber other := by
      intro other hother
      rcases List.mem_append.mp hother with hmem | hmem
      · exact hbids other (List.mem_append_left _ hmem)
      · rcases List.mem_cons.mp hmem with rfl | hmem
        · exact himproves.decimal
        · exact hbids other (List.mem_append_right _ (List.mem_cons_of_mem _ hmem))
    have hscore : read bigNumber (f bid).score ≤ read bigNumber (f better).score := by
      rw [read_score hreads, read_score hreads]
      have hmax : ∀ field, (∀ other ∈ front ++ bid :: rest, 0 ≤ read bigNumber (field other)) →
          0 ≤ truncated 7 (maxOf bigNumber (front ++ bid :: rest) field) := by
        intro field hfield
        have hzero : truncated 7 0 = 0 := by simp [truncated]
        exact hzero ▸ truncated_mono 7 (maxOf_nonneg hne hfield)
      exact truncated_mono 4 (weighted_mono hnonneg
        (hmax _ fun other hother => (hbids other hother).price.2)
        (hmax _ fun other hother => (hbids other hother).latency.2) himproves.values)
    refine ⟨_, _, rankBids_sorted hreads hne haddress hweights hreadable,
      rankBids_sorted hreads (by simp) haddress' hweights
        (fun other hother => (hbids' other hother).readable), ?_, ?_⟩
    · rw [hf]
      have hmem : bid ∈ front ++ bid :: rest := List.mem_append_right front List.mem_cons_self
      have hmem' : better ∈ front ++ better :: rest :=
        List.mem_append_right front List.mem_cons_self
      have hrank := rankOf_sorted bigNumber haddress hmem f fun _ => rfl
      have hrank' := rankOf_sorted bigNumber haddress' hmem' f fun _ => rfl
      rw [himproves.address] at hrank'
      rw [hrank, hrank', List.countP_append, List.countP_append, List.countP_cons,
        List.countP_cons]
      have hcount : ∀ others : List AgentBid,
          others.countP (fun other => decide (RanksFirst bigNumber (f other) (f better)) &&
            !decide (other.agent_address = bid.agent_address)) ≤
          others.countP (fun other => decide (RanksFirst bigNumber (f other) (f bid)) &&
            !decide (other.agent_address = bid.agent_address)) := by
        intro others
        refine List.countP_mono_left fun other _ hfirst => ?_
        rw [Bool.and_eq_true, decide_eq_true_eq] at hfirst ⊢
        exact ⟨hfirst.1.of_le himproves.address hscore, hfirst.2⟩
      have hfront := hcount front
      have hrest := hcount rest
      simp only [himproves.address, decide_true, Bool.not_true, Bool.and_false, Bool.false_eq_true,
        if_false]
      omega
    · intro scored hscored hself scored' hscored' hself'
      rw [hf] at hscored'
      obtain ⟨x, hx, rfl⟩ := List.mem_map.mp ((List.mem_insertionSort _).mp hscored)
      obtain ⟨y, hy, rfl⟩ := List.mem_map.mp ((List.mem_insertionSort _).mp hscored')
      have hxbid : x = bid := List.inj_on_of_nodup_map haddress hx (by simp) hself
      have hybetter : y = better :=
        List.inj_on_of_nodup_map haddress' hy (by simp) (hself'.trans himproves.address.symm)
      rw [hxbid, hybetter]
      exact hscore

end

/-! ## Negative weights -/

section

variable {bigNumber : String → Option ℚ} {weights : BidWeights}

/-- A bid with one decimal place in each field -/
def tenthsBid (address : String) (v : BidValues) : AgentBid where
  agent_address := address
  price := fixedText 1 v.price
  reputation := fixedText 1 v.reputation
  estimated_latency_seconds := fixedText 1 v.latency
  success_rate := fixedText 1 v.success_rate

/-- A bid that is halfway in everything -/
def halfwayBid : AgentBid := tenthsBid "GHALF" ⟨1 / 2, 50, 1 / 2, 1 / 2⟩

/-- A bid with the largest price and latency -/
def dearestBid : AgentBid := tenthsBid "GDEAR" ⟨1, 0, 1, 0⟩

/-- A number of tenths -/
def Tenths (q : ℚ) : Prop := ∃ n : ℕ, q * 10 = n

theorem Tenths.read (hreads : ReadsDecimals bigNumber) {q : ℚ} (h : Tenths q) :
    NonnegDecimal bigNumber (fixedText 1 q) ∧ Math.read bigNumber (fixedText 1 q) = q := by
  obtain ⟨n, hn⟩ := h
  have htext : bigNumber (fixedText 1 q) = some q := by
    rw [hreads.text q 1 (by decide) (by decide), truncated_of_int (n := n) (by rw [pow_one, hn]; rfl)]
  have hread : Math.read bigNumber (fixedText 1 q) = q := by rw [Math.read, htext, Option.getD_some]
  have hnonneg : (0 : ℚ) ≤ n := n.cast_nonneg
  refine ⟨⟨by rw [htext, Option.isSome_some], ?_⟩, hread⟩
  rw [hread]
  linarith

theorem tenthsBid_read (hreads : ReadsDecimals bigNumber) (address : String) {v : BidValues}
    (hprice : Tenths v.price) (hreputation : Tenths v.reputation) (hlatency : Tenths v.latency)
    (hsuccess : Tenths v.success_rate) :
    DecimalBid bigNumber (tenthsBid address v) ∧ valuesOf bigNumber (tenthsBid address v) = v := by
  refine ⟨⟨(hprice.read hreads).1, (hreputation.read hreads).1, (hlatency.read hreads).1,
    (hsuccess.read hreads).1⟩, ?_⟩
  rw [valuesOf, tenthsBid, (hprice.read hreads).2, (hreputation.read hreads).2,
    (hlatency.read hreads).2, (hsuccess.read hreads).2]

theorem tenths_zero : Tenths 0 := ⟨0, by norm_num⟩
theorem tenths_half : Tenths (1 / 2) := ⟨5, by norm_num⟩
theorem tenths_one : Tenths 1 := ⟨10, by norm_num⟩
theorem tenths_fifty : Tenths 50 := ⟨500, by norm_num⟩
theorem tenths_hundred : Tenths 100 := ⟨1000, by norm_num⟩

theorem halfwayBid_values (hreads : ReadsDecimals bigNumber) :
    DecimalBid bigNumber halfwayBid ∧ valuesOf bigNumber halfwayBid = ⟨1 / 2, 50, 1 / 2, 1 / 2⟩ :=
  tenthsBid_read hreads "GHALF" tenths_half tenths_fifty tenths_half tenths_half

theorem dearestBid_values (hreads : ReadsDecimals bigNumber) :
    DecimalBid bigNumber dearestBid ∧ valuesOf bigNumber dearestBid = ⟨1, 0, 1, 0⟩ :=
  tenthsBid_read hreads "GDEAR" tenths_one tenths_zero tenths_one tenths_zero

/-- A ratio with at most 16 decimal places scores exactly. -/
theorem ratioOf_one {x : ℚ} {n : ℤ} (hplaces : x * 10 = n) (h : 0 ≤ x ∧ x ≤ 1) :
    ratioOf x (truncated 7 1) = (1 - x) * 100 := by
  have hmax : truncated 7 1 = 1 := truncated_of_int (n := 10 ^ 7) (by norm_num)
  have hratio : TypeScript.dividedBy x 1 = x := by
    rw [TypeScript.dividedBy, div_one]
    refine truncated_of_int (n := n * 10 ^ 17) ?_
    push_cast
    rw [← hplaces, DECIMAL_PLACES]
    ring
  rw [ratioOf, hmax, if_neg one_ne_zero, hratio, clamp_of_range]
  constructor
  · linarith [h.2]
  · linarith [h.1]

theorem largest_pair_one {x : ℚ} (h : x ≤ 1) : largest [x, 1] = 1 := by
  show (if (1 : ℚ) > x then 1 else x) = 1
  split_ifs with hlt
  · rfl
  · exact le_antisymm h (not_lt.mp hlt)

/-- The normalisers of a bid that is not worse than halfway, beside the dearest one -/
theorem maxOf_dearest (hreads : ReadsDecimals bigNumber) (bid : AgentBid)
    (hprice : (valuesOf bigNumber bid).price ≤ 1 / 2)
    (hlatency : (valuesOf bigNumber bid).latency ≤ 1 / 2) :
    maxOf bigNumber [bid, dearestBid] AgentBid.price = 1 ∧
      maxOf bigNumber [bid, dearestBid] AgentBid.estimated_latency_seconds = 1 := by
  have hdearest := (dearestBid_values hreads).2
  have hprice_one : read bigNumber dearestBid.price = 1 := congrArg BidValues.price hdearest
  have hlatency_one : read bigNumber dearestBid.estimated_latency_seconds = 1 :=
    congrArg BidValues.latency hdearest
  constructor
  · show largest [read bigNumber bid.price, read bigNumber dearestBid.price] = 1
    rw [hprice_one]
    exact largest_pair_one (hprice.trans (by norm_num))
  · show largest [read bigNumber bid.estimated_latency_seconds,
      read bigNumber dearestBid.estimated_latency_seconds] = 1
    rw [hlatency_one]
    exact largest_pair_one (hlatency.trans (by norm_num))

/-- All scores of the halfway bid are 50. -/
theorem halfwayBid_scores : (BidValues.mk (1 / 2) 50 (1 / 2) (1 / 2)).scores (truncated 7 1)
    (truncated 7 1) = ⟨50, 50, 50, 50⟩ := by
  have hratio : ratioOf (1 / 2) (truncated 7 1) = 50 := by
    rw [ratioOf_one (n := 5) (by norm_num) (by norm_num)]
    norm_num
  rw [BidValues.scores, hratio, clamp_of_range (by norm_num), clamp_of_range (by norm_num)]
  norm_num

/-- **A bid that loses by getting better**: its scores were 50, and the weighted sum of its new
scores is smaller. -/
theorem not_fair_of_loss (hreads : ReadsDecimals bigNumber)
    (hweights : DecimalWeights bigNumber weights) {v : BidValues} {s : SubScores}
    (hdecimal : DecimalBid bigNumber (tenthsBid "GHALF" v) ∧
      valuesOf bigNumber (tenthsBid "GHALF" v) = v)
    (hbetter : BidValues.Better ⟨1 / 2, 50, 1 / 2, 1 / 2⟩ v)
    (hscores : v.scores (truncated 7 1) (truncated 7 1) = s)
    (hloss : s.weighted (weightValues bigNumber weights) < 50) :
    ¬ Fair bigNumber [halfwayBid, dearestBid] weights := by
  intro hfair
  obtain ⟨hhalf, hvalues⟩ := halfwayBid_values hreads
  obtain ⟨hbid, hvalues'⟩ := hdecimal
  have hdear := (dearestBid_values hreads).1
  obtain ⟨hprice, hlatency⟩ := maxOf_dearest hreads halfwayBid (by rw [hvalues])
    (by rw [hvalues])
  obtain ⟨hprice', hlatency'⟩ := maxOf_dearest hreads (tenthsBid "GHALF" v)
    (by rw [hvalues']; exact hbetter.price) (by rw [hvalues']; exact hbetter.latency)
  have himproves : Improves bigNumber halfwayBid (tenthsBid "GHALF" v) :=
    ⟨rfl, hbid, by rw [hvalues, hvalues']; exact hbetter⟩
  obtain ⟨ranking, ranking', hranking, hranking', -, hmono⟩ :=
    hfair.monotone [] halfwayBid [dearestBid] _ rfl himproves (hprice'.trans hprice.symm)
      (hlatency'.trans hlatency.symm)
  rw [rankBids_read hreads (by simp) hweights fun bid hbid => by
    rcases List.mem_pair.mp hbid with rfl | rfl
    · exact hhalf.readable
    · exact hdear.readable] at hranking
  rw [List.nil_append, rankBids_read hreads (by simp) hweights fun bid hbid => by
    rcases List.mem_pair.mp hbid with rfl | rfl
    · exact himproves.decimal.readable
    · exact hdear.readable] at hranking'
  have hmem : scoredOf bigNumber [halfwayBid, dearestBid] weights halfwayBid ∈ ranking := by
    rw [← Except.ok.inj hranking, List.mem_insertionSort]
    exact List.mem_map_of_mem (by simp)
  have hmem' : scoredOf bigNumber [tenthsBid "GHALF" v, dearestBid] weights
      (tenthsBid "GHALF" v) ∈ ranking' := by
    rw [← Except.ok.inj hranking', List.mem_insertionSort]
    exact List.mem_map_of_mem (by simp)
  have hscore := hmono _ hmem rfl _ hmem' rfl
  have hsum : sumOf bigNumber [halfwayBid, dearestBid] weights halfwayBid = 50 := by
    have htotal := hweights.total
    rw [sumOf, scoresOf, hprice, hlatency, hvalues, halfwayBid_scores, SubScores.weighted]
    unfold WeightValues.total at htotal
    linarith
  rw [read_score hreads, read_score hreads, hsum,
    truncated_of_int (q := 50) (n := 500000) (by norm_num)] at hscore
  have hbound := hscore.trans (truncated_le_max 4 _)
  rw [sumOf, scoresOf, hprice', hlatency', hvalues', hscores] at hbound
  rcases le_max_iff.mp hbound with hle | hle
  · linarith
  · norm_num at hle

/-- **If these two bids are ranked fairly, no weight is negative.** -/
theorem nonneg_of_fair (hreads : ReadsDecimals bigNumber)
    (hweights : DecimalWeights bigNumber weights)
    (hfair : Fair bigNumber [halfwayBid, dearestBid] weights) :
    (weightValues bigNumber weights).Nonneg := by
  have htotal := hweights.total
  unfold WeightValues.total at htotal
  have hratio_half : ratioOf (1 / 2) (truncated 7 1) = 50 :=
    congrArg SubScores.price halfwayBid_scores
  have hratio_zero : ratioOf 0 (truncated 7 1) = 100 := by
    rw [ratioOf_one (n := 0) (by norm_num) (by norm_num)]
    norm_num
  have hrate_half : TypeScript.clamp (1 / 2 * 100) 0 100 = 50 :=
    congrArg SubScores.reliability halfwayBid_scores
  have hrate_one : TypeScript.clamp (1 * 100) 0 100 = 100 := by
    rw [clamp_of_range (by norm_num)]
    norm_num
  have hfifty : TypeScript.clamp 50 0 100 = 50 := clamp_of_range (by norm_num)
  have hhundred : TypeScript.clamp 100 0 100 = 100 := clamp_of_range (by norm_num)
  -- one field after the other is made as good as can be
  refine ⟨?_, ?_, ?_, ?_⟩
  · by_contra hneg
    have hscores : BidValues.scores (truncated 7 1) (truncated 7 1) ⟨0, 50, 1 / 2, 1 / 2⟩ =
        ⟨100, 50, 50, 50⟩ := by
      rw [BidValues.scores, hratio_zero, hratio_half, hfifty, hrate_half]
    refine not_fair_of_loss hreads hweights
      (tenthsBid_read hreads "GHALF" tenths_zero tenths_fifty tenths_half tenths_half)
      (by constructor <;> norm_num) hscores ?_ hfair
    rw [SubScores.weighted]
    linarith
  · by_contra hneg
    have hscores : BidValues.scores (truncated 7 1) (truncated 7 1) ⟨1 / 2, 100, 1 / 2, 1 / 2⟩ =
        ⟨50, 100, 50, 50⟩ := by
      rw [BidValues.scores, hratio_half, hhundred, hrate_half]
    refine not_fair_of_loss hreads hweights
      (tenthsBid_read hreads "GHALF" tenths_half tenths_hundred tenths_half tenths_half)
      (by constructor <;> norm_num) hscores ?_ hfair
    rw [SubScores.weighted]
    linarith
  · by_contra hneg
    have hscores : BidValues.scores (truncated 7 1) (truncated 7 1) ⟨1 / 2, 50, 0, 1 / 2⟩ =
        ⟨50, 50, 100, 50⟩ := by
      rw [BidValues.scores, hratio_zero, hratio_half, hfifty, hrate_half]
    refine not_fair_of_loss hreads hweights
      (tenthsBid_read hreads "GHALF" tenths_half tenths_fifty tenths_zero tenths_half)
      (by constructor <;> norm_num) hscores ?_ hfair
    rw [SubScores.weighted]
    linarith
  · by_contra hneg
    have hscores : BidValues.scores (truncated 7 1) (truncated 7 1) ⟨1 / 2, 50, 1 / 2, 1⟩ =
        ⟨50, 50, 50, 100⟩ := by
      rw [BidValues.scores, hratio_half, hfifty, hrate_one]
    refine not_fair_of_loss hreads hweights
      (tenthsBid_read hreads "GHALF" tenths_half tenths_fifty tenths_half tenths_one)
      (by constructor <;> norm_num) hscores ?_ hfair
    rw [SubScores.weighted]
    linarith

/-- **When ranking is fair**: accepted weights rank all lists of bids fairly exactly if none of them
is negative. -/
theorem rankBids_fair_iff (hreads : ReadsDecimals bigNumber)
    (haccepted : TypeScript.weightSum bigNumber weights = .ok 1) :
    (∀ bids, bids ≠ [] → (bids.map AgentBid.agent_address).Nodup →
      (∀ bid ∈ bids, DecimalBid bigNumber bid) → Fair bigNumber bids weights) ↔
      (weightValues bigNumber weights).Nonneg := by
  have hweights := weightSum_ok.mp haccepted
  constructor
  · intro h
    refine nonneg_of_fair hreads hweights (h _ (by simp) (by decide) fun bid hbid => ?_)
    rcases List.mem_pair.mp hbid with rfl | rfl
    · exact (halfwayBid_values hreads).1
    · exact (dearestBid_values hreads).1
  · exact fun hnonneg bids hne haddress hbids =>
      fair_of_nonneg hreads hweights hnonneg hne haddress hbids

end

/-! ## Samples -/

theorem readAsRust_literal (text : String) (h : (parse text).isOk = true) :
    (readAsRust text).isSome = true ∧ read readAsRust text = (literal text).value := by
  have hparse := (accepted_of_isOk h).1
  rw [read, readAsRust, hparse]
  exact ⟨rfl, rfl⟩

theorem equalWeights_values : weightValues readAsRust equalWeights = ⟨1 / 4, 1 / 4, 1 / 4, 1 / 4⟩ := by
  have hread := (readAsRust_literal "0.25" (by decide +kernel)).2
  have hliteral : literal "0.25" = ⟨25, 2⟩ := by decide +kernel
  have hquarter : read readAsRust "0.25" = 1 / 4 := by
    rw [hread, hliteral]
    norm_num [value]
  rw [weightValues, equalWeights, hquarter]

theorem equalWeights_decimal : DecimalWeights readAsRust equalWeights := by
  have hsome := (readAsRust_literal "0.25" (by decide +kernel)).1
  exact ⟨hsome, hsome, hsome, hsome, by rw [equalWeights_values]; norm_num [WeightValues.total]⟩

theorem equal_weights_fair :
    (weightValues readAsRust equalWeights).Nonneg ∧
      Fair readAsRust [halfwayBid, dearestBid] equalWeights := by
  have hnonneg : (weightValues readAsRust equalWeights).Nonneg := by
    rw [equalWeights_values]
    constructor <;> norm_num
  have hfair := (rankBids_fair_iff readAsRust_reads (weightSum_ok.mpr equalWeights_decimal)).mpr
    hnonneg
  refine ⟨hnonneg, hfair _ (List.cons_ne_nil _ _) (by decide) fun bid hbid => ?_⟩
  rcases List.mem_pair.mp hbid with rfl | rfl
  · exact (halfwayBid_values readAsRust_reads).1
  · exact (dearestBid_values readAsRust_reads).1

/-- Weights with sum 1, of which the first is negative -/
def debtWeights : BidWeights := ⟨"-0.5", "0.5", "0.5", "0.5"⟩

/-- The halfway bid scores 50; for half its price it would score less. -/
theorem negative_weight_unfair :
    TypeScript.weightSum readAsRust debtWeights = .ok 1 ∧
      (∀ bid ∈ [halfwayBid, dearestBid], DecimalBid readAsRust bid) ∧
      ([halfwayBid, dearestBid].map AgentBid.agent_address).Nodup ∧
      ¬ Fair readAsRust [halfwayBid, dearestBid] debtWeights := by
  obtain ⟨hsome, hread⟩ := readAsRust_literal "0.5" (by decide +kernel)
  obtain ⟨hsome', hread'⟩ := readAsRust_literal "-0.5" (by decide +kernel)
  have hliteral : literal "0.5" = ⟨5, 1⟩ := by decide +kernel
  have hliteral' : literal "-0.5" = ⟨-5, 1⟩ := by decide +kernel
  have hweights : weightValues readAsRust debtWeights = ⟨-1 / 2, 1 / 2, 1 / 2, 1 / 2⟩ := by
    rw [weightValues, debtWeights, hread, hread', hliteral, hliteral']
    norm_num [value]
  have haccepted : DecimalWeights readAsRust debtWeights :=
    ⟨hsome', hsome, hsome, hsome, by rw [hweights]; norm_num [WeightValues.total]⟩
  refine ⟨weightSum_ok.mpr haccepted, fun bid hbid => ?_, by decide, fun hfair => ?_⟩
  · rcases List.mem_pair.mp hbid with rfl | rfl
    · exact (halfwayBid_values readAsRust_reads).1
    · exact (dearestBid_values readAsRust_reads).1
  · have hprice := (nonneg_of_fair readAsRust_reads haccepted hfair).price
    rw [hweights] at hprice
    norm_num at hprice

end StellarAgent.Math
