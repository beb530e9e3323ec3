import StellarAgent.Lib.StableSort
import StellarAgent.Math.Bid

set_option autoImplicit false

/-! # The scorers agree

`rank_bids` of the Rust SDK and `rankBids` of the TypeScript SDK on literals that both accept. Both
compute the same sub-scores; a weighted sub-score of Rust whose decimal places add up to more than
`MAX_SCALE` comes out too large (`overshoot`). The rankings are the same exactly when the weights do
not sum to 1, where both refuse, or this is not seen in the four decimals of any score
(`rankings_agree_iff`).
-/

namespace StellarAgent.Math

open Lib Decimal

/-! ## Literals -/

/-- What is documented of `BigNumber`: of a literal that both parsers accept it reads the value, and
it reads what `toFixed` writes. -/
structure ReadsDecimals (bigNumber : String → Option ℚ) : Prop where
  literal : ∀ s a x, parse s = .ok a → bigNumber s = some x → x = a.value
  text : ∀ q places, 0 < places → places ≤ MAX_SCALE →
    bigNumber (fixedText places q) = some (truncated places q)

/-- The decimal that a literal stands for -/
def literal (s : String) : Decimal :=
  match parse s with
  | .ok a => a
  | .error _ => zero

/-- A literal that both parsers accept -/
def Accepted (bigNumber : String → Option ℚ) (s : String) : Prop :=
  parse s = .ok (literal s) ∧ (bigNumber s).isSome = true

structure AcceptedBid (bigNumber : String → Option ℚ) (bid : AgentBid) : Prop where
  price : Accepted bigNumber bid.price
  reputation : Accepted bigNumber bid.reputation
  latency : Accepted bigNumber bid.estimated_latency_seconds
  success_rate : Accepted bigNumber bid.success_rate

structure AcceptedWeights (bigNumber : String → Option ℚ) (weights : BidWeights) : Prop where
  price : Accepted bigNumber weights.price
  reputation : Accepted bigNumber weights.reputation
  latency : Accepted bigNumber weights.latency
  reliability : Accepted bigNumber weights.reliability

section

variable {bigNumber : String → Option ℚ} {s : String}

theorem Accepted.rust (h : Accepted bigNumber s) : Rust.bn s = .ok (literal s) := by
  rw [Rust.bn, h.1]

theorem Accepted.typeScript (hreads : ReadsDecimals bigNumber) (h : Accepted bigNumber s) :
    TypeScript.bn bigNumber s = .ok (literal s).value := by
  obtain ⟨x, hx⟩ := Option.isSome_iff_exists.mp h.2
  rw [TypeScript.bn, hx, hreads.literal s _ x h.1 hx]

theorem literal_scale_le (s : String) : (literal s).scale ≤ MAX_SCALE := by
  unfold literal
  split
  · rename_i heq
    exact parse_scale heq
  · exact Nat.zero_le _

/-- What `toFixed` writes is read by both alike. -/
theorem literal_fixedText (q : ℚ) {places : ℕ} (hpos : 0 < places) (h : places ≤ MAX_SCALE) :
    parse (fixedText places q) = .ok (literal (fixedText places q)) ∧
      (literal (fixedText places q)).value = truncated places q := by
  have hparse := parse_fixedText q hpos h
  have hliteral : literal (fixedText places q) = ⟨towardZero (q * 10 ^ places), places⟩ := by
    rw [literal, hparse]
  rw [hliteral]
  exact ⟨hparse, rfl⟩

theorem rust_bn_fixedText (q : ℚ) {places : ℕ} (hpos : 0 < places) (h : places ≤ MAX_SCALE) :
    Rust.bn (fixedText places q) = .ok (literal (fixedText places q)) := by
  rw [Rust.bn, (literal_fixedText q hpos h).1]

theorem typeScript_bn_fixedText (hreads : ReadsDecimals bigNumber) (q : ℚ) {places : ℕ}
    (hpos : 0 < places) (h : places ≤ MAX_SCALE) :
    TypeScript.bn bigNumber (fixedText places q) = .ok (truncated places q) := by
  rw [TypeScript.bn, hreads.text q places hpos h]

end

/-! ## Fallible maps -/

@[simp] theorem ok_bind {E A B : Type} (a : A) (f : A → Except E B) :
    (Except.ok a >>= f) = f a := rfl

@[simp] theorem pure_eq_ok {E A : Type} (a : A) : (pure a : Except E A) = .ok a := rfl

theorem mapM_ok {E A B : Type} {f : A → Except E B} {g : A → B} {l : List A}
    (h : ∀ a ∈ l, f a = .ok (g a)) : l.mapM f = .ok (l.map g) := by
  induction l with
  | nil => rfl
  | cons a l ih =>
      rw [List.mapM_cons, h a List.mem_cons_self, ih fun b hb => h b (List.mem_cons_of_mem a hb)]
      rfl

theorem mapM_error {E A B : Type} {f : A → Except E B} {a : A} {l : List A} {e : E}
    (h : f a = .error e) : (a :: l).mapM f = .error e := by
  rw [List.mapM_cons, h]
  rfl

/-! ## Normalisers -/

def largest (values : List ℚ) : ℚ :=
  values.tail.foldl (fun m v => if v > m then v else m) (values.headD 0)

/-- The largest value of a field, with 7 decimal places -/
def normaliser (bids : List AgentBid) (field : AgentBid → String) : ℚ :=
  truncated 7 (largest (bids.map fun bid => (literal (field bid)).value))

theorem foldl_largest (values : List Decimal) (current : Decimal) :
    ∃ largest, values.foldl Rust.keepLarger (some current) = some largest ∧
      largest.value =
        (values.map value).foldl (fun m v => if v > m then v else m) current.value := by
  induction values generalizing current with
  | nil => exact ⟨current, rfl, rfl⟩
  | cons next values ih =>
      simp only [List.foldl_cons, List.map_cons, Rust.keepLarger]
      by_cases hless : current.value < next.value
      · rw [if_neg (by rw [cmp_eq, compare_lt_iff_lt.mpr hless]; simp), if_pos hless]
        exact ih next
      · rw [if_pos (by rwa [cmp_eq, Ne, compare_lt_iff_lt]), if_neg hless]
        exact ih current

section

variable {bigNumber : String → Option ℚ} {bids : List AgentBid} {field : AgentBid → String}

theorem rust_maxField (hne : bids ≠ []) (h : ∀ bid ∈ bids, Accepted bigNumber (field bid)) :
    ∃ a, Rust.maxField bids field = .ok a ∧ a.value = normaliser bids field := by
  obtain ⟨bid, rest, rfl⟩ := List.exists_cons_of_ne_nil hne
  have hvalues := mapM_ok fun other hother => (h other hother).rust
  obtain ⟨largest, hfold, hlargest⟩ :=
    foldl_largest (rest.map fun other => literal (field other)) (literal (field bid))
  refine ⟨literal (fixedText 7 largest.value), ?_, ?_⟩
  · rw [Rust.maxField, hvalues, ok_bind, List.map_cons, List.foldl_cons, Rust.keepLarger, hfold,
      Option.getD_some, toFixed_eq largest (by decide), rust_bn_fixedText _ (by decide) (by decide)]
  · rw [(literal_fixedText _ (by decide) (by decide)).2, normaliser, hlargest, List.map_map]
    rfl

theorem typeScript_maxField (hreads : ReadsDecimals bigNumber)
    (h : ∀ bid ∈ bids, Accepted bigNumber (field bid)) :
    TypeScript.maxField bigNumber bids field =
      .ok (fixedText 7 (largest (bids.map fun bid => (literal (field bid)).value))) := by
  have hvalues := mapM_ok fun other hother => (h other hother).typeScript hreads
  rw [TypeScript.maxField, hvalues]
  rfl

end

/-! ## Sub-scores -/

/-- `100 * (1 - x / max)`, clamped -/
def ratioOf (x max : ℚ) : ℚ :=
  if max = 0 then 100 else TypeScript.clamp ((1 - TypeScript.dividedBy x max) * 100) 0 100

/-- The decimal places that a clamped value keeps -/
def shownPlaces (score : ℚ) (places : ℕ) : ℕ := if 0 < score ∧ score < 100 then places else 0

theorem clamp_value (a : Decimal) :
    (Rust.clamp a zero Rust.hundred).value = TypeScript.clamp a.value 0 100 ∧
      (Rust.clamp a zero Rust.hundred).scale =
        shownPlaces (TypeScript.clamp a.value 0 100) a.scale := by
  have hzero : zero.value = 0 := by simp [value, zero]
  have hhundred : Rust.hundred.value = 100 := by simp [value, Rust.hundred]
  rw [Rust.clamp, TypeScript.clamp]
  simp only [cmp_eq, compare_gt_iff_gt, compare_lt_iff_lt, hzero]
  by_cases hpos : 0 < a.value
  · rw [if_pos hpos, max_eq_left hpos.le, hhundred]
    by_cases hsmall : a.value < 100
    · rw [if_pos hsmall, min_eq_left hsmall.le, shownPlaces, if_pos ⟨hpos, hsmall⟩]
      exact ⟨rfl, rfl⟩
    · rw [if_neg hsmall, min_eq_right (not_lt.mp hsmall), shownPlaces, if_neg (by norm_num)]
      exact ⟨hhundred, rfl⟩
  · rw [if_neg hpos, max_eq_right (not_lt.mp hpos), hzero, hhundred, if_pos (by norm_num),
      min_eq_left (by norm_num), shownPlaces, if_neg (by norm_num)]
    exact ⟨hzero, rfl⟩

theorem hundred_value : Rust.hundred.value = 100 := by simp [value, Rust.hundred]

theorem one_value : one.value = 1 := by simp [value, one]

theorem mul_hundred (a : Decimal) (h : a.scale ≤ MAX_SCALE) :
    (a.mul Rust.hundred).value = a.value * 100 ∧ (a.mul Rust.hundred).scale = a.scale := by
  constructor
  · rw [(mul_value_iff a Rust.hundred).mpr (.inl h), hundred_value]
  · show min (min (a.scale + 0) U32_MAX) MAX_SCALE = a.scale
    simp only [U32_MAX, MAX_SCALE] at h ⊢
    omega

section

variable {bigNumber : String → Option ℚ} {field : String}

theorem rust_ratioScore (h : Accepted bigNumber field) (max : Decimal) :
    ∃ a, Rust.ratioScore field max = .ok a ∧
      a.value = ratioOf (literal field).value max.value ∧
      a.scale = shownPlaces (ratioOf (literal field).value max.value) DECIMAL_PLACES := by
  rw [Rust.ratioScore, ratioOf]
  by_cases hzero : max.value = 0
  · have hdigits : max.isZero = true := by simpa [isZero] using (value_eq_zero max).mp hzero
    rw [if_pos hdigits, if_pos hzero]
    exact ⟨_, rfl, hundred_value, by rw [shownPlaces, if_neg (by norm_num)]; rfl⟩
  · have hne : max.unscaled ≠ 0 := fun h => hzero ((value_eq_zero max).mpr h)
    have hdigits : ¬ max.isZero = true := by simpa [isZero] using hne
    obtain ⟨quotient, hquotient, hscale, hvalue⟩ :=
      (literal field).divTruncate_eq hne DECIMAL_PLACES
    have hplaces : min DECIMAL_PLACES MAX_SCALE = DECIMAL_PLACES := by decide
    rw [hplaces] at hscale hvalue
    have hsub : (one.sub quotient).scale = DECIMAL_PLACES := by
      show Nat.max 0 quotient.scale = DECIMAL_PLACES
      rw [hscale]
      rfl
    obtain ⟨hmul, hmul_scale⟩ := mul_hundred (one.sub quotient) (by rw [hsub]; decide)
    obtain ⟨hclamp, hclamp_scale⟩ := clamp_value ((one.sub quotient).mul Rust.hundred)
    rw [sub_value, one_value, hvalue] at hmul
    rw [hmul] at hclamp hclamp_scale
    rw [hmul_scale, hsub] at hclamp_scale
    rw [if_neg hdigits, if_neg hzero, h.rust, ok_bind, Rust.div, hquotient]
    exact ⟨_, rfl, hclamp, hclamp_scale⟩

theorem typeScript_ratioScore (hreads : ReadsDecimals bigNumber) (h : Accepted bigNumber field)
    (q : ℚ) : TypeScript.ratioScore bigNumber field (fixedText 7 q) =
      .ok (ratioOf (literal field).value (truncated 7 q)) := by
  rw [TypeScript.ratioScore, typeScript_bn_fixedText hreads q (by decide) (by decide), ok_bind,
    ratioOf]
  by_cases hzero : truncated 7 q = 0
  · rw [if_pos hzero, if_pos hzero]
    rfl
  · rw [if_neg hzero, if_neg hzero, h.typeScript hreads, ok_bind, TypeScript.div, if_neg hzero]
    rfl

end

/-! ## Scores -/

/-- The sub-scores of a bid -/
structure SubScores where
  price : ℚ
  reputation : ℚ
  latency : ℚ
  reliability : ℚ

def subScores (bids : List AgentBid) (bid : AgentBid) : SubScores where
  price := ratioOf (literal bid.price).value (normaliser bids AgentBid.price)
  reputation := TypeScript.clamp (literal bid.reputation).value 0 100
  latency := ratioOf (literal bid.estimated_latency_seconds).value
    (normaliser bids AgentBid.estimated_latency_seconds)
  reliability := TypeScript.clamp ((literal bid.success_rate).value * 100) 0 100

/-- The sum of the weights -/
def weightTotal (weights : BidWeights) : ℚ :=
  (literal weights.price).value + (literal weights.reputation).value +
    (literal weights.latency).value + (literal weights.reliability).value

/-- The weighted sum of the sub-scores -/
def composite (bids : List AgentBid) (weights : BidWeights) (bid : AgentBid) : ℚ :=
  let scores := subScores bids bid
  scores.price * (literal weights.price).value +
    scores.reputation * (literal weights.reputation).value +
    scores.latency * (literal weights.latency).value +
    scores.reliability * (literal weights.reliability).value

/-- By how much a weighted sub-score with `places` decimal places comes out too large: its decimal
point is moved by the places over `MAX_SCALE`. -/
def overshoot (score : ℚ) (places : ℕ) (weight : String) : ℚ :=
  score * (literal weight).value *
    (10 ^ (shownPlaces score places + (literal weight).scale - MAX_SCALE) - 1)

/-- By how much the weighted sum comes out too large -/
def totalOvershoot (bids : List AgentBid) (weights : BidWeights) (bid : AgentBid) : ℚ :=
  let scores := subScores bids bid
  overshoot scores.price DECIMAL_PLACES weights.price +
    overshoot scores.reputation (literal bid.reputation).scale weights.reputation +
    overshoot scores.latency DECIMAL_PLACES weights.latency +
    overshoot scores.reliability (literal bid.success_rate).scale weights.reliability

/-- A scored bid with a given weighted sum -/
def scoredWith (bids : List AgentBid) (bid : AgentBid) (sum : ℚ) : ScoredBid where
  agent_address := bid.agent_address
  score := TypeScript.fixed4 sum
  breakdown := {
    price_score := TypeScript.fixed4 (subScores bids bid).price
    reputation_score := TypeScript.fixed4 (subScores bids bid).reputation
    latency_score := TypeScript.fixed4 (subScores bids bid).latency
    reliability_score := TypeScript.fixed4 (subScores bids bid).reliability }

theorem rust_fixed4 (a : Decimal) : Rust.fixed4 a = TypeScript.fixed4 a.value := by
  rw [Rust.fixed4, TypeScript.fixed4, toFixed_eq _ (by decide), truncate_value]

/-- The product moves the decimal point by the places over the cap. -/
theorem mul_overshoot {a : Decimal} {score : ℚ} {places : ℕ} {weight : String}
    (hvalue : a.value = score) (hscale : a.scale = shownPlaces score places) :
    (a.mul (literal weight)).value =
      score * (literal weight).value + overshoot score places weight := by
  have hmul := a.mul_value (literal weight)
  have hexact : a.value * (literal weight).value * 10 ^ (a.scale + (literal weight).scale) =
      a.unscaled * (literal weight).unscaled := by
    rw [value, value, pow_add]
    field_simp
  have hsplit : a.scale + (literal weight).scale =
      min (a.scale + (literal weight).scale) MAX_SCALE +
        (a.scale + (literal weight).scale - MAX_SCALE) := by omega
  have hpow : (10 : ℚ) ^ min (a.scale + (literal weight).scale) MAX_SCALE ≠ 0 := by positivity
  rw [overshoot, ← hscale, ← hvalue]
  rw [← hexact, hsplit, pow_add, ← hsplit] at hmul
  apply mul_right_cancel₀ hpow
  rw [hmul]
  ring

section

variable {bigNumber : String → Option ℚ} {bids : List AgentBid} {weights : BidWeights}
  {bid : AgentBid} {max_bid max_latency : Decimal}

theorem rust_weightSum (h : AcceptedWeights bigNumber weights) :
    ∃ a, Rust.weightSum weights = .ok a ∧ a.value = weightTotal weights := by
  rw [Rust.weightSum, h.price.rust, h.reputation.rust, h.latency.rust, h.reliability.rust]
  refine ⟨_, rfl, ?_⟩
  rw [add_value, add_value, add_value, weightTotal]

theorem typeScript_weightSum (hreads : ReadsDecimals bigNumber)
    (h : AcceptedWeights bigNumber weights) :
    TypeScript.weightSum bigNumber weights = .ok (weightTotal weights) := by
  rw [TypeScript.weightSum, h.price.typeScript hreads, h.reputation.typeScript hreads,
    h.latency.typeScript hreads, h.reliability.typeScript hreads]
  rfl

/-- **The Rust score is that of the weighted sum with its overshoot.** -/
theorem rust_scoreBid (hweights : AcceptedWeights bigNumber weights)
    (hbid : AcceptedBid bigNumber bid) (hprice : max_bid.value = normaliser bids AgentBid.price)
    (hlatency : max_latency.value = normaliser bids AgentBid.estimated_latency_seconds)
    (hsum : weightTotal weights = 1) :
    Rust.scoreBid bid max_bid max_latency weights =
      .ok (scoredWith bids bid (composite bids weights bid + totalOvershoot bids weights bid)) := by
  obtain ⟨total, htotal, htotal_value⟩ := rust_weightSum hweights
  have hone : total.eq one = true := by rw [eq_iff, htotal_value, one_value, hsum]
  obtain ⟨price, hprice_ok, hprice_value, hprice_scale⟩ := rust_ratioScore hbid.price max_bid
  obtain ⟨latency, hlatency_ok, hlatency_value, hlatency_scale⟩ :=
    rust_ratioScore hbid.latency max_latency
  rw [hprice] at hprice_value hprice_scale
  rw [hlatency] at hlatency_value hlatency_scale
  obtain ⟨hreputation_value, hreputation_scale⟩ := clamp_value (literal bid.reputation)
  obtain ⟨hmul_value, hmul_scale⟩ :=
    mul_hundred (literal bid.success_rate) (literal_scale_le _)
  obtain ⟨hreliability_value, hreliability_scale⟩ :=
    clamp_value ((literal bid.success_rate).mul Rust.hundred)
  rw [hmul_value] at hreliability_value hreliability_scale
  rw [hmul_scale] at hreliability_scale
  have hcomposite : ((((price.mul (literal weights.price)).add
      ((Rust.clamp (literal bid.reputation) zero Rust.hundred).mul
        (literal weights.reputation))).add (latency.mul (literal weights.latency))).add
      ((Rust.clamp ((literal bid.success_rate).mul Rust.hundred) zero Rust.hundred).mul
        (literal weights.reliability))).value =
      composite bids weights bid + totalOvershoot bids weights bid := by
    rw [add_value, add_value, add_value, mul_overshoot hprice_value hprice_scale,
      mul_overshoot hreputation_value hreputation_scale,
      mul_overshoot hlatency_value hlatency_scale,
      mul_overshoot hreliability_value hreliability_scale, composite, totalOvershoot, subScores]
    ring
  rw [Rust.scoreBid, htotal, ok_bind, if_neg (by simp [hone]), hprice_ok, ok_bind,
    hbid.reputation.rust, ok_bind, hlatency_ok, ok_bind, hbid.success_rate.rust, ok_bind,
    hweights.price.rust, ok_bind, hweights.reputation.rust, ok_bind, hweights.latency.rust, ok_bind,
    hweights.reliability.rust, ok_bind]
  simp only [rust_fixed4, hcomposite, hprice_value, hreputation_value, hlatency_value,
    hreliability_value]
  rfl

variable (bids) in
/-- **The TypeScript score is that of the weighted sum.** -/
theorem typeScript_scoreBid (hreads : ReadsDecimals bigNumber)
    (hweights : AcceptedWeights bigNumber weights) (hbid : AcceptedBid bigNumber bid)
    (hsum : weightTotal weights = 1) :
    TypeScript.scoreBid bigNumber bid
      (fixedText 7 (largest (bids.map fun bid => (literal bid.price).value)))
      (fixedText 7 (largest (bids.map fun bid => (literal bid.estimated_latency_seconds).value)))
      weights = .ok (scoredWith bids bid (composite bids weights bid)) := by
  rw [TypeScript.scoreBid, typeScript_weightSum hreads hweights, ok_bind, if_neg (not_not.mpr hsum),
    typeScript_ratioScore hreads hbid.price, ok_bind, hbid.reputation.typeScript hreads, ok_bind,
    typeScript_ratioScore hreads hbid.latency, ok_bind, hbid.success_rate.typeScript hreads, ok_bind,
    hweights.price.typeScript hreads, ok_bind, hweights.reputation.typeScript hreads, ok_bind,
    hweights.latency.typeScript hreads, ok_bind, hweights.reliability.typeScript hreads, ok_bind]
  rfl

end

/-! ## Rankings -/

/-- The order of the Rust ranking, on scored bids -/
def rustBefore (a b : ScoredBid) : Bool :=
  Rust.ranksBefore (literal a.score, a) (literal b.score, b)

/-- An ASCII string is one byte and one code unit a character. -/
theorem codes_ascii {s : String} (h : ∀ c ∈ s.toList, c.toNat < 128) :
    Rust.utf8 s = s.toList.map Char.toNat ∧ TypeScript.utf16 s = s.toList.map Char.toNat := by
  have hbyte : ∀ c : Char, c.toNat < 128 →
      (String.utf8EncodeChar c).map UInt8.toNat = [c.toNat] := by
    intro c hc
    have hval : c.val ≤ 0x7f := by
      rw [UInt32.le_iff_toNat_le]
      show c.toNat ≤ 127
      omega
    have hsize : c.utf8Size = 1 := if_pos hval
    have hlow : c.val.toUInt8.toNat = c.toNat := by
      rw [UInt32.toNat_toUInt8]
      exact Nat.mod_eq_of_lt (lt_trans hc (by norm_num))
    rw [String.utf8EncodeChar_eq_singleton hsize, List.map_singleton, hlow]
  rw [Rust.utf8, TypeScript.utf16, List.map_eq_flatMap]
  constructor
  · exact List.flatMap_congr fun c hc => hbyte c (h c hc)
  · exact List.flatMap_congr fun c hc => if_pos ((h c hc).trans (by norm_num))

section

variable {bigNumber : String → Option ℚ} {bids : List AgentBid}

/-- Of two scored bids with different ASCII addresses both put the same one first. -/
theorem rustBefore_iff (hreads : ReadsDecimals bigNumber) {x y : AgentBid} {p q : ℚ}
    (hx : ∀ c ∈ x.agent_address.toList, c.toNat < 128)
    (hy : ∀ c ∈ y.agent_address.toList, c.toNat < 128) (hne : x.agent_address ≠ y.agent_address) :
    rustBefore (scoredWith bids x p) (scoredWith bids y q) = true ↔
      TypeScript.compareScored bigNumber (scoredWith bids x p) (scoredWith bids y q) ≤ 0 := by
  have hscore : ∀ (bid : AgentBid) (sum : ℚ),
      (literal (scoredWith bids bid sum).score).value = truncated 4 sum ∧
        bigNumber (scoredWith bids bid sum).score = some (truncated 4 sum) := by
    intro bid sum
    obtain ⟨_, hvalue⟩ :=
      literal_fixedText (truncated 4 sum) (by decide : 0 < 4) (by decide : 4 ≤ MAX_SCALE)
    have htext := hreads.text (truncated 4 sum) 4 (by decide) (by decide)
    rw [truncated_truncated] at hvalue htext
    exact ⟨hvalue, htext⟩
  obtain ⟨hx_value, hx_read⟩ := hscore x p
  obtain ⟨hy_value, hy_read⟩ := hscore y q
  have haddress : Rust.utf8 x.agent_address ≠ Rust.utf8 y.agent_address := by
    rw [(codes_ascii hx).1, (codes_ascii hy).1]
    intro hsame
    have hinj : Function.Injective Char.toNat := fun c d hcd => Char.toNat_inj.mp hcd
    exact hne (String.toList_inj.mp (List.map_injective_iff.mpr hinj hsame))
  have hcodes_x : TypeScript.utf16 x.agent_address = Rust.utf8 x.agent_address := by
    rw [(codes_ascii hx).1, (codes_ascii hx).2]
  have hcodes_y : TypeScript.utf16 y.agent_address = Rust.utf8 y.agent_address := by
    rw [(codes_ascii hy).1, (codes_ascii hy).2]
  rw [rustBefore, Rust.ranksBefore, TypeScript.compareScored, hx_read, hy_read]
  simp only [cmp_eq, hx_value, hy_value, Option.getD_some]
  rcases lt_trichotomy (truncated 4 q) (truncated 4 p) with hlt | heq | hgt
  · rw [compare_lt_iff_lt.mpr hlt, if_pos hlt]
    simp
  · rw [compare_eq_iff_eq.mpr heq, if_neg heq.not_lt, if_neg heq.not_gt]
    show decide (¬ Rust.utf8 y.agent_address < Rust.utf8 x.agent_address) = true ↔
      (if TypeScript.utf16 x.agent_address < TypeScript.utf16 y.agent_address then (-1 : ℤ)
        else 1) ≤ 0
    rw [hcodes_x, hcodes_y, decide_eq_true_eq]
    by_cases hless : Rust.utf8 x.agent_address < Rust.utf8 y.agent_address
    · rw [if_pos hless]
      simp [not_lt_of_gt hless]
    · rw [if_neg hless]
      have hother : Rust.utf8 y.agent_address < Rust.utf8 x.agent_address :=
        lt_of_le_of_ne (not_lt.mp hless) haddress.symm
      simp [hother]
  · rw [compare_gt_iff_gt.mpr hgt, if_neg (not_lt_of_gt hgt), if_pos hgt]
    simp

variable {weights : BidWeights}

theorem rust_rankBids (hne : bids ≠ []) (hbids : ∀ bid ∈ bids, AcceptedBid bigNumber bid)
    (hweights : AcceptedWeights bigNumber weights) (hsum : weightTotal weights = 1) :
    Rust.rankBids bids weights = .ok
      ((bids.map fun bid => scoredWith bids bid
        (composite bids weights bid + totalOvershoot bids weights bid)).insertionSort
          fun a b => rustBefore a b = true) := by
  obtain ⟨max_bid, hmax_bid, hprice⟩ := rust_maxField hne fun bid hbid => (hbids bid hbid).price
  obtain ⟨max_latency, hmax_latency, hlatency⟩ :=
    rust_maxField hne fun bid hbid => (hbids bid hbid).latency
  have hscored := mapM_ok fun bid hbid =>
    rust_scoreBid hweights (hbids bid hbid) hprice hlatency hsum
  have hkeyed : ∀ s ∈ bids.map fun bid => scoredWith bids bid
      (composite bids weights bid + totalOvershoot bids weights bid),
      (do let score ← Rust.bn s.score; return (score, s)) = .ok (literal s.score, s) := by
    intro s hs
    obtain ⟨bid, _, rfl⟩ := List.mem_map.mp hs
    show (do let score ← Rust.bn (TypeScript.fixed4 _); return (score, _)) = _
    rw [TypeScript.fixed4, rust_bn_fixedText _ (by decide) (by decide)]
    rfl
  rw [Rust.rankBids, if_neg (by simpa using hne), hmax_bid, ok_bind, hmax_latency, ok_bind, hscored,
    ok_bind, mapM_ok hkeyed, ok_bind, pure_eq_ok]
  congr 1
  have hforget : (Prod.snd ∘ fun s : ScoredBid => (literal s.score, s)) = id := rfl
  rw [List.map_insertionSort _ (fun a b => rustBefore a b = true) Prod.snd, List.map_map, hforget,
    List.map_id]
  · intro a ha b hb
    obtain ⟨s, _, rfl⟩ := List.mem_map.mp ha
    obtain ⟨t, _, rfl⟩ := List.mem_map.mp hb
    exact Iff.rfl

theorem typeScript_rankBids (hreads : ReadsDecimals bigNumber) (hne : bids ≠ [])
    (hbids : ∀ bid ∈ bids, AcceptedBid bigNumber bid)
    (hweights : AcceptedWeights bigNumber weights) (hsum : weightTotal weights = 1) :
    TypeScript.rankBids bigNumber bids weights = .ok
      ((bids.map fun bid => scoredWith bids bid (composite bids weights bid)).insertionSort
        fun a b => TypeScript.compareScored bigNumber a b ≤ 0) := by
  have hprice := typeScript_maxField hreads fun bid hbid => (hbids bid hbid).price
  have hlatency := typeScript_maxField hreads fun bid hbid => (hbids bid hbid).latency
  have hscored := mapM_ok fun bid hbid =>
    typeScript_scoreBid bids hreads hweights (hbids bid hbid) hsum
  rw [TypeScript.rankBids, if_neg (by simpa using hne), hprice, ok_bind, hlatency, ok_bind, hscored]
  rfl

/-- **Weights that do not sum to 1 are refused by both.** -/
theorem both_refuse (hreads : ReadsDecimals bigNumber) (hne : bids ≠ [])
    (hbids : ∀ bid ∈ bids, AcceptedBid bigNumber bid)
    (hweights : AcceptedWeights bigNumber weights) (hsum : weightTotal weights ≠ 1) :
    (∃ e, Rust.rankBids bids weights = .error e) ∧
      ∃ e, TypeScript.rankBids bigNumber bids weights = .error e := by
  obtain ⟨total, htotal, htotal_value⟩ := rust_weightSum hweights
  have hone : total.eq one = false := by
    rw [← Bool.not_eq_true, eq_iff, htotal_value, one_value]
    exact hsum
  obtain ⟨max_bid, hmax_bid, -⟩ := rust_maxField hne fun bid hbid => (hbids bid hbid).price
  obtain ⟨max_latency, hmax_latency, -⟩ :=
    rust_maxField hne fun bid hbid => (hbids bid hbid).latency
  have hprice := typeScript_maxField hreads fun bid hbid => (hbids bid hbid).price
  have hlatency := typeScript_maxField hreads fun bid hbid => (hbids bid hbid).latency
  have hempty : ¬ bids.isEmpty = true := by simpa using hne
  rw [Rust.rankBids, TypeScript.rankBids, if_neg hempty, if_neg hempty, hmax_bid, ok_bind,
    hmax_latency, ok_bind, hprice, ok_bind, hlatency, ok_bind]
  obtain ⟨bid, rest, rfl⟩ := List.exists_cons_of_ne_nil hne
  have hrust : Rust.scoreBid bid max_bid max_latency weights =
      .error (.InvalidWeights (total.toFixed 4)) := by
    rw [Rust.scoreBid, htotal, ok_bind, if_pos hone]
  have htypeScript : ∀ maxBid maxLatency,
      TypeScript.scoreBid bigNumber bid maxBid maxLatency weights =
        .error (.InvalidWeights (fixedText 4 (weightTotal weights))) := by
    intro maxBid maxLatency
    rw [TypeScript.scoreBid, typeScript_weightSum hreads hweights, ok_bind, if_pos hsum]
  rw [mapM_error (f := fun bid => Rust.scoreBid bid max_bid max_latency weights) hrust,
    mapM_error (f := fun bid => TypeScript.scoreBid bigNumber bid _ _ weights) (htypeScript _ _)]
  exact ⟨⟨_, rfl⟩, _, rfl⟩

/-! ## Agreement -/

/-- Both fail, or both return the same ranking. -/
def SameOutcome (rust typeScript : Except FixedPointError (List ScoredBid)) : Prop :=
  match rust, typeScript with
  | .ok ranking, .ok ranking' => ranking = ranking'
  | .error _, .error _ => True
  | _, _ => False

/-- What the weighted sum of a bid is too large by is not seen in its four decimals. -/
def Undisturbed (bids : List AgentBid) (weights : BidWeights) (bid : AgentBid) : Prop :=
  truncated 4 (composite bids weights bid + totalOvershoot bids weights bid) =
    truncated 4 (composite bids weights bid)

theorem scoredWith_inj {x y : AgentBid} {p q : ℚ}
    (h : scoredWith bids x p = scoredWith bids y q) :
    x.agent_address = y.agent_address ∧ truncated 4 p = truncated 4 q := by
  refine ⟨congrArg ScoredBid.agent_address h, ?_⟩
  have hscore : TypeScript.fixed4 p = TypeScript.fixed4 q := congrArg ScoredBid.score h
  simpa using fixedText_inj (by decide) (by decide) hscore

/-- The rankings of weights that sum to 1 -/
theorem sorted_eq_iff (hreads : ReadsDecimals bigNumber)
    (haddress : (bids.map AgentBid.agent_address).Nodup)
    (hascii : ∀ bid ∈ bids, ∀ c ∈ bid.agent_address.toList, c.toNat < 128) (f g : AgentBid → ℚ) :
    ((bids.map fun bid => scoredWith bids bid (f bid)).insertionSort
        fun a b => rustBefore a b = true) =
      ((bids.map fun bid => scoredWith bids bid (g bid)).insertionSort
        fun a b => TypeScript.compareScored bigNumber a b ≤ 0) ↔
      ∀ bid ∈ bids, truncated 4 (f bid) = truncated 4 (g bid) := by
  constructor
  · intro hsorted bid hbid
    have hmem : scoredWith bids bid (f bid) ∈
        ((bids.map fun bid => scoredWith bids bid (g bid)).insertionSort
          fun a b => TypeScript.compareScored bigNumber a b ≤ 0) := by
      rw [← hsorted, List.mem_insertionSort]
      exact List.mem_map_of_mem hbid
    obtain ⟨other, hother, hsame⟩ := List.mem_map.mp ((List.mem_insertionSort _).mp hmem)
    obtain ⟨haddr, hsum⟩ := scoredWith_inj hsame
    obtain rfl := List.inj_on_of_nodup_map haddress hother hbid haddr
    exact hsum.symm
  · intro hsums
    have hscored : (bids.map fun bid => scoredWith bids bid (f bid)) =
        bids.map fun bid => scoredWith bids bid (g bid) := by
      refine List.map_congr_left fun bid hbid => ?_
      have hscore : TypeScript.fixed4 (f bid) = TypeScript.fixed4 (g bid) := by
        rw [TypeScript.fixed4, TypeScript.fixed4, hsums bid hbid]
      rw [scoredWith, scoredWith, hscore]
    rw [hscored]
    refine insertionSort_congr (List.pairwise_map.mpr ?_)
    have hdistinct : bids.Pairwise fun x y => x.agent_address ≠ y.agent_address :=
      List.pairwise_map.mp haddress
    exact hdistinct.imp_of_mem fun hx hy hne =>
      rustBefore_iff hreads (hascii _ hx) (hascii _ hy) hne

/-- A weighted sub-score within `MAX_SCALE` is exact. -/
theorem overshoot_eq_zero {score : ℚ} {places : ℕ} {weight : String}
    (h : places + (literal weight).scale ≤ MAX_SCALE) : overshoot score places weight = 0 := by
  have hshown : shownPlaces score places ≤ places := by
    unfold shownPlaces
    split_ifs
    · exact le_rfl
    · exact Nat.zero_le _
  have hexcess : shownPlaces score places + (literal weight).scale - MAX_SCALE = 0 := by omega
  rw [overshoot, hexcess, pow_zero, sub_self, mul_zero]

/-- **Nothing is too large while the decimal places of each field and its weight fit.** -/
theorem undisturbed_of_fits {bid : AgentBid}
    (hprice : DECIMAL_PLACES + (literal weights.price).scale ≤ MAX_SCALE)
    (hreputation : (literal bid.reputation).scale + (literal weights.reputation).scale ≤ MAX_SCALE)
    (hlatency : DECIMAL_PLACES + (literal weights.latency).scale ≤ MAX_SCALE)
    (hreliability :
      (literal bid.success_rate).scale + (literal weights.reliability).scale ≤ MAX_SCALE) :
    Undisturbed bids weights bid := by
  have htotal : totalOvershoot bids weights bid = 0 := by
    simp only [totalOvershoot]
    rw [overshoot_eq_zero hprice, overshoot_eq_zero hreputation, overshoot_eq_zero hlatency,
      overshoot_eq_zero hreliability]
    norm_num
  rw [Undisturbed, htotal, add_zero]

/-- **The scorers agree** exactly when the weights do not sum to 1, where both refuse, or when what
the weighted sums are too large by is seen in no score. -/
theorem rankings_agree_iff (hreads : ReadsDecimals bigNumber)
    (haddress : (bids.map AgentBid.agent_address).Nodup)
    (hascii : ∀ bid ∈ bids, ∀ c ∈ bid.agent_address.toList, c.toNat < 128)
    (hbids : ∀ bid ∈ bids, AcceptedBid bigNumber bid)
    (hweights : AcceptedWeights bigNumber weights) :
    SameOutcome (Rust.rankBids bids weights) (TypeScript.rankBids bigNumber bids weights) ↔
      weightTotal weights ≠ 1 ∨ ∀ bid ∈ bids, Undisturbed bids weights bid := by
  by_cases hne : bids = []
  · subst hne
    exact iff_of_true rfl (.inr fun bid hbid => absurd hbid List.not_mem_nil)
  by_cases hsum : weightTotal weights = 1
  · rw [rust_rankBids hne hbids hweights hsum, typeScript_rankBids hreads hne hbids hweights hsum]
    exact (sorted_eq_iff hreads haddress hascii _ _).trans
      ⟨.inr, fun h => h.resolve_left (not_not.mpr hsum)⟩
  · obtain ⟨⟨e, hrust⟩, e', htypeScript⟩ := both_refuse hreads hne hbids hweights hsum
    rw [hrust, htypeScript]
    exact iff_of_true trivial (.inl hsum)

end

/-! ## Samples -/

/-- A reader that takes what the Rust parser takes -/
def readAsRust (s : String) : Option ℚ := (parse s).toOption.map value

theorem readAsRust_reads : ReadsDecimals readAsRust where
  literal s a x hparse hread := by
    rw [readAsRust, hparse] at hread
    exact (Option.some.inj hread).symm
  text q places hpos h := by
    rw [readAsRust, parse_fixedText q hpos h]
    rfl

theorem accepted_of_isOk {s : String} (h : (parse s).isOk = true) : Accepted readAsRust s := by
  cases hparse : parse s with
  | error e =>
      rw [hparse] at h
      cases h
  | ok a =>
      have hliteral : literal s = a := by rw [literal, hparse]
      refine ⟨by rw [hparse, hliteral], ?_⟩
      rw [readAsRust, hparse]
      rfl

def sampleBid : AgentBid where
  agent_address := "GCHEAP"
  price := "1"
  reputation := "50.5"
  estimated_latency_seconds := "10"
  success_rate := "0.9"

def otherBid : AgentBid := { sampleBid with agent_address := "GPRICEY", price := "9" }

def equalWeights : BidWeights := ⟨"0.25", "0.25", "0.25", "0.25"⟩

theorem acceptedBid_sample : AcceptedBid readAsRust sampleBid := by
  constructor
  all_goals exact accepted_of_isOk (by decide +kernel)

theorem rankings_agree_equal_weights :
    SameOutcome (Rust.rankBids [sampleBid, otherBid] equalWeights)
      (TypeScript.rankBids readAsRust [sampleBid, otherBid] equalWeights) := by
  have haddress : ([sampleBid, otherBid].map AgentBid.agent_address).Nodup := by decide
  have hascii : ∀ bid ∈ [sampleBid, otherBid], ∀ c ∈ bid.agent_address.toList, c.toNat < 128 := by
    simp [sampleBid, otherBid]
  have hother : AcceptedBid readAsRust otherBid := by
    constructor
    all_goals exact accepted_of_isOk (by decide +kernel)
  have hbids : ∀ bid ∈ [sampleBid, otherBid], AcceptedBid readAsRust bid := by
    intro bid hbid
    rcases List.mem_pair.mp hbid with rfl | rfl
    · exact acceptedBid_sample
    · exact hother
  have hweights : AcceptedWeights readAsRust equalWeights := by
    constructor
    all_goals exact accepted_of_isOk (by decide +kernel)
  have hfits : ∀ bid ∈ [sampleBid, otherBid],
      Undisturbed [sampleBid, otherBid] equalWeights bid := by
    intro bid hbid
    rcases List.mem_pair.mp hbid with rfl | rfl
    all_goals
      apply undisturbed_of_fits
      all_goals decide +kernel
  exact (rankings_agree_iff readAsRust_reads haddress hascii hbids hweights).mpr (.inr hfits)

/-- A half with zeros after it -/
def paddedHalf (zeros : ℕ) : String :=
  String.ofList (['0'] ++ '.' :: '5' :: List.replicate zeros '0')

theorem parse_paddedHalf {zeros : ℕ} (h : zeros + 1 ≤ MAX_SCALE) :
    parse (paddedHalf zeros) = .ok ⟨5 * 10 ^ zeros, zeros + 1⟩ := by
  have hdigits : ∀ d ∈ '5' :: List.replicate zeros '0', d.isDigit = true := by
    intro d hd
    rcases List.mem_cons.mp hd with rfl | hd
    · decide
    · rw [List.eq_of_mem_replicate hd]
      decide
  have hlen : ('5' :: List.replicate zeros '0').length = zeros + 1 := by
    rw [List.length_cons, List.length_replicate]
  have hread : Nat.ofDigitChars 10 (['0'] ++ '5' :: List.replicate zeros '0') 0 = 10 ^ zeros * 5 := by
    rw [List.singleton_append, Nat.ofDigitChars_cons, Nat.ofDigitChars_cons]
    exact Nat.ofDigitChars_replicate_zero
  have hzero : ∀ c ∈ ['0'], c.isDigit = true := by simp
  have hplain := parse_plain false (List.cons_ne_nil '0' []) hzero hdigits (hlen.trans_le h)
  rw [hlen, hread, if_neg Bool.false_ne_true] at hplain
  refine hplain.trans ?_
  push_cast
  rw [mul_comm]

theorem literal_paddedHalf {zeros : ℕ} (h : zeros + 1 ≤ MAX_SCALE) :
    (literal (paddedHalf zeros)).scale = zeros + 1 ∧
      (literal (paddedHalf zeros)).value = 1 / 2 := by
  rw [literal, parse_paddedHalf h]
  refine ⟨rfl, ?_⟩
  rw [value, pow_succ]
  push_cast
  field_simp
  norm_num

/-- The reputation weight has as many decimal places as a literal may have. -/
def paddedWeights : BidWeights := ⟨"0", paddedHalf 9999, "0", "0.5"⟩

/-- The weighted reputation of 50.5 comes out as 252.5 instead of 25.25. -/
theorem padded_disturbed :
    weightTotal paddedWeights = 1 ∧ ¬ Undisturbed [sampleBid] paddedWeights sampleBid := by
  obtain ⟨hscale, hhalf⟩ := literal_paddedHalf (by decide : 9999 + 1 ≤ MAX_SCALE)
  have hzero : literal "0" = ⟨0, 0⟩ := by decide +kernel
  have hweight : literal "0.5" = ⟨5, 1⟩ := by decide +kernel
  have hreputation : literal "50.5" = ⟨505, 1⟩ := by decide +kernel
  have hsuccess : literal "0.9" = ⟨9, 1⟩ := by decide +kernel
  have hzero_value : (literal "0").value = 0 := by rw [hzero]; simp [value]
  have hweight_value : (literal "0.5").value = 1 / 2 := by rw [hweight]; norm_num [value]
  have hreputation_value : (literal "50.5").value = 50.5 := by rw [hreputation]; norm_num [value]
  have hsuccess_value : (literal "0.9").value = 0.9 := by rw [hsuccess]; norm_num [value]
  have hreputation_scale : (literal "50.5").scale = 1 := by rw [hreputation]
  have hsuccess_scale : (literal "0.9").scale = 1 := by rw [hsuccess]
  have hreputation_score : TypeScript.clamp 50.5 0 100 = 50.5 := by norm_num [TypeScript.clamp]
  have hsuccess_score : TypeScript.clamp (0.9 * 100) 0 100 = 90 := by norm_num [TypeScript.clamp]
  have hcomposite : composite [sampleBid] paddedWeights sampleBid = 70.25 := by
    simp only [composite, subScores, paddedWeights, sampleBid, hzero_value, hhalf, hweight_value,
      hreputation_value, hsuccess_value, hreputation_score, hsuccess_score]
    norm_num
  have hexcess : shownPlaces 50.5 1 + (9999 + 1) - MAX_SCALE = 1 := by
    rw [shownPlaces, if_pos (by norm_num)]
    rfl
  have hovershoot : totalOvershoot [sampleBid] paddedWeights sampleBid = 227.25 := by
    have hsmall : overshoot 90 1 "0.5" = 0 := overshoot_eq_zero (by rw [hweight]; decide)
    simp only [totalOvershoot, subScores, paddedWeights, sampleBid, hreputation_value,
      hsuccess_value, hreputation_score, hsuccess_score, hreputation_scale, hsuccess_scale, hsmall]
    simp only [overshoot, hzero_value, hhalf, hscale, hexcess]
    norm_num
  constructor
  · simp only [weightTotal, paddedWeights, hzero_value, hhalf, hweight_value]
    norm_num
  · have hleft : (297.5 : ℚ) * 10 ^ 4 = (2975000 : ℤ) := by norm_num
    have hright : (70.25 : ℚ) * 10 ^ 4 = (702500 : ℤ) := by norm_num
    have hsum : (70.25 : ℚ) + 227.25 = 297.5 := by norm_num
    rw [Undisturbed, hcomposite, hovershoot, hsum, truncated, truncated, hleft, hright,
      towardZero_intCast, towardZero_intCast]
    norm_num

theorem padded_weight_disagrees :
    AcceptedBid readAsRust sampleBid ∧ AcceptedWeights readAsRust paddedWeights ∧
      ¬ SameOutcome (Rust.rankBids [sampleBid] paddedWeights)
        (TypeScript.rankBids readAsRust [sampleBid] paddedWeights) := by
  have hfits : 9999 + 1 ≤ MAX_SCALE := by decide
  have hweights : AcceptedWeights readAsRust paddedWeights := by
    refine ⟨accepted_of_isOk (by decide +kernel), accepted_of_isOk ?_,
      accepted_of_isOk (by decide +kernel), accepted_of_isOk (by decide +kernel)⟩
    show (parse (paddedHalf 9999)).isOk = true
    rw [parse_paddedHalf hfits]
    rfl
  have hbids : ∀ bid ∈ [sampleBid], AcceptedBid readAsRust bid := by
    intro bid hbid
    rw [List.mem_singleton.mp hbid]
    exact acceptedBid_sample
  obtain ⟨hsum, hdisturbed⟩ := padded_disturbed
  have hne : [sampleBid] ≠ [] := List.cons_ne_nil _ _
  refine ⟨acceptedBid_sample, hweights, ?_⟩
  rw [rust_rankBids hne hbids hweights hsum,
    typeScript_rankBids readAsRust_reads hne hbids hweights hsum]
  intro hsame
  have haddress : ([sampleBid].map AgentBid.agent_address).Nodup := List.nodup_singleton _
  have hascii : ∀ bid ∈ [sampleBid], ∀ c ∈ bid.agent_address.toList, c.toNat < 128 := by
    simp [sampleBid]
  exact hdisturbed ((sorted_eq_iff readAsRust_reads haddress hascii _ _).mp hsame sampleBid
    (List.mem_singleton_self _))

end StellarAgent.Math
