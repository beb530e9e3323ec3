import StellarAgent.PaymentChannel.SlippageFloor
import StellarAgent.PriceOracle.Contract

set_option autoImplicit false

/-! # What the oracle answers

A price that is read is the one published last for its pair, by the admin, no more than `max_age`
ledgers ago (`get_price_iff`). So a payment in another asset, from a payment channel that is wired
to this oracle, is bounded by such a price (`conversion_priced`).
-/

namespace StellarAgent.PriceOracle

open Lib Soroban

/-- What is stored for a pair -/
def entryOf (w : State) (base quote : Address) : Option PriceEntry := (pricesFor w base).lookup quote

/-- What a call that returns does. -/
inductive Effect (env : Env) (w : State) : Call → State → Prop
  | initialized {w' : State} {admin : Address} (fresh : w.storage.admin = none)
      (admin_eq : w'.storage.admin = some admin) (prices_eq : w'.storage.prices = w.storage.prices) :
      Effect env w (.initializeOracle admin) w'
  | published {w' : State} {admin base quote : Address} {price : Int}
      (auth : env.authorized admin = true) (admin_of : w.storage.admin = some admin)
      (positive : 0 < price) (admin_eq : w'.storage.admin = w.storage.admin)
      (entry_eq : ∀ base' quote', entryOf w' base' quote' =
        if base' = base ∧ quote' = quote then some ⟨price, w.sequence⟩ else entryOf w base' quote') :
      Effect env w (.setPrice admin base quote price) w'
  | aged {w' : State} {admin : Address} {max_age : Nat} (auth : env.authorized admin = true)
      (admin_of : w.storage.admin = some admin) (admin_eq : w'.storage.admin = w.storage.admin)
      (prices_eq : w'.storage.prices = w.storage.prices) :
      Effect env w (.setMaxAge admin max_age) w'

section

variable {env : Env} {w w' : State} {base quote : Address}

theorem entryOf_congr (h : w'.storage.prices = w.storage.prices) :
    entryOf w' base quote = entryOf w base quote := by
  unfold entryOf pricesFor allPrices
  rw [h]

theorem entryOf_savePricesFor (by_base : Map Address PriceEntry) (base' : Address) :
    entryOf (savePricesFor w base by_base) base' quote
      = if base' = base then by_base.lookup quote else entryOf w base' quote := by
  show (((((allPrices w).insert base by_base).lookup base').getD ∅).lookup quote) = _
  rw [Map.lookup_insert_eq_ite]
  split_ifs
  · rfl
  · rfl

theorem setPrice_ok {admin : Address} {price : Int}
    (h : setPrice env w.quiet admin base quote price = .ok w') :
    Effect env w (.setPrice admin base quote price) w' := by
  simp only [setPrice, requireAdmin, Result.bind_eq_ok, requireAuth_eq_ok, expect_eq_ok,
    panicIf_eq_ok, not_not, not_le, Result.pure_eq_ok] at h
  obtain ⟨_, ⟨_, hauth, _, hadmin, rfl⟩, _, hpositive, rfl⟩ := h
  refine .published hauth hadmin hpositive rfl fun base' quote' => ?_
  show entryOf (savePricesFor w.quiet base _) base' quote' = _
  rw [entryOf_savePricesFor, Map.lookup_insert_eq_ite]
  by_cases hbase : base' = base
  · subst hbase
    rw [if_pos rfl]
    by_cases hquote : quote' = quote
    · rw [if_pos hquote, if_pos ⟨rfl, hquote⟩]
      rfl
    · rw [if_neg hquote, if_neg fun hboth => hquote hboth.2]
      rfl
  · rw [if_neg hbase, if_neg fun hboth => hbase hboth.1]
    rfl

theorem exec_effect {call : Call} (h : exec env w.quiet call = .ok w') : Effect env w call w' := by
  cases call with
  | initializeOracle admin =>
      simp only [exec, initializeOracle, Result.bind_eq_ok, panicIf_eq_ok, not_not,
        requireAuth_eq_ok, Result.pure_eq_ok] at h
      obtain ⟨_, hfresh, _, _, rfl⟩ := h
      exact .initialized hfresh rfl rfl
  | setPrice admin base quote price => exact setPrice_ok h
  | setMaxAge admin max_age =>
      simp only [exec, setMaxAge, requireAdmin, Result.bind_eq_ok, requireAuth_eq_ok, expect_eq_ok,
        panicIf_eq_ok, not_not, Result.pure_eq_ok] at h
      obtain ⟨_, ⟨_, hauth, _, hadmin, rfl⟩, rfl⟩ := h
      exact .aged hauth hadmin rfl rfl

end

/-! ## Along a run -/

/-- The price that stands for a pair at the end of a history: `price`, published by `admin` on
`ledger`, with nothing published for the pair since. -/
def Stands (tr : List Tx) (base quote : Address) (price : Int) (admin : Address) (ledger : Nat) :
    Prop :=
  ∃ before t after env, tr = before ++ t :: after ∧
    priceOracle.Calls t env (.setPrice admin base quote price) ∧ env.authorized admin = true ∧
    t.pre.sequence = ledger ∧ ∀ x ∈ after, ∀ later, ¬ Tx.Publishes x base quote later

section

variable {P : Platform} {d : Deployment} {w0 w w' : State} {a : Action Call} {t : Tx}
  {tr : List Tx} {base quote admin : Address} {price : Int} {ledger : Nat}

theorem Stands.snoc (h : Stands tr base quote price admin ledger)
    (hnot : ∀ later, ¬ Tx.Publishes t base quote later) :
    Stands (tr ++ [t]) base quote price admin ledger := by
  obtain ⟨before, x, after, env, rfl, hcalls, hauth, hledger, hlast⟩ := h
  refine ⟨before, x, after ++ [t], env, by simp, hcalls, hauth, hledger, ?_⟩
  intro y hy
  rcases List.mem_append.mp hy with hy | hy
  · exact hlast y hy
  · rw [List.mem_singleton.mp hy]
    exact hnot

/-- One price stands at most. -/
theorem Stands.unique {price' : Int} {admin' : Address} {ledger' : Nat}
    (h : Stands tr base quote price admin ledger) (h' : Stands tr base quote price' admin' ledger') :
    price' = price ∧ admin' = admin ∧ ledger' = ledger := by
  obtain ⟨before, x, after, env, rfl, hcalls, -, hledger, hlast⟩ := h
  obtain ⟨before', x', after', env', heq, hcalls', -, hledger', hlast'⟩ := h'
  rcases List.append_eq_append_iff.mp heq with ⟨between, hbefore, hrest⟩ | ⟨between, hbefore, hrest⟩
  · cases between with
    | nil =>
        cases hrest
        obtain ⟨-, hcall⟩ := hcalls.unique hcalls'
        cases hcall
        exact ⟨rfl, rfl, hledger'.symm.trans hledger⟩
    | cons y between =>
        cases hrest
        exact absurd ⟨env', admin', hcalls'⟩ (hlast x' (by simp) price')
  · cases between with
    | nil =>
        cases hrest
        obtain ⟨-, hcall⟩ := hcalls.unique hcalls'
        cases hcall
        exact ⟨rfl, rfl, hledger'.symm.trans hledger⟩
    | cons y between =>
        cases hrest
        exact absurd ⟨env, admin, hcalls⟩ (hlast' x (by simp) price)

variable (base quote) in
/-- What a step does to the price of a pair: it is published anew, or stays. -/
theorem step_entry (h : Step P d w a w') :
    (∃ env admin price, priceOracle.Calls ⟨w, a, w'⟩ env (.setPrice admin base quote price) ∧
        env.authorized admin = true ∧ w.storage.admin = some admin ∧ 0 < price ∧
        w'.storage.admin = some admin ∧ entryOf w' base quote = some ⟨price, w.sequence⟩) ∨
      (∀ price, ¬ Tx.Publishes ⟨w, a, w'⟩ base quote price) ∧
        entryOf w' base quote = entryOf w base quote ∧
        (w'.storage.admin = w.storage.admin ∨ w.storage.admin = none) := by
  rcases Contract.step_cases h with ⟨hsame, -, -, -, hnocall⟩ | ⟨env, call, rfl, -, -, hexec⟩
  · refine .inr ⟨?_, entryOf_congr (by rw [hsame]), .inl (by rw [hsame])⟩
    rintro price ⟨env, admin, hcalls⟩
    exact hnocall env _ hcalls
  have hcalls : priceOracle.Calls ⟨w, .invoke env call, w'⟩ env call := ⟨rfl, hexec⟩
  have heffect : Effect env w call w' := exec_effect hexec
  cases heffect with
  | initialized hfresh hadmin hprices =>
      refine .inr ⟨?_, entryOf_congr hprices, .inr hfresh⟩
      rintro price ⟨env', admin', hcalls'⟩
      cases (hcalls.unique hcalls').2
  | aged hauth hadmin hkept hprices =>
      refine .inr ⟨?_, entryOf_congr hprices, .inl hkept⟩
      rintro price ⟨env', admin', hcalls'⟩
      cases (hcalls.unique hcalls').2
  | @published _ admin base' quote' price hauth hadmin hpositive hkept hentry =>
      by_cases hpair : base = base' ∧ quote = quote'
      · obtain ⟨rfl, rfl⟩ := hpair
        refine .inl ⟨env, admin, price, hcalls, hauth, hadmin, hpositive, hkept.trans hadmin, ?_⟩
        rw [hentry, if_pos ⟨rfl, rfl⟩]
      · refine .inr ⟨?_, by rw [hentry, if_neg hpair], .inl hkept⟩
        rintro price' ⟨env', admin', hcalls'⟩
        cases (hcalls.unique hcalls').2
        exact hpair ⟨rfl, rfl⟩

/-- **What is stored for a pair**: the price that stands, from the admin, and it is positive. -/
theorem stands_of_entry (h0 : Genesis w0) (h : Runs P d w0 tr w) {entry : PriceEntry}
    (hentry : entryOf w base quote = some entry) :
    0 < entry.price ∧ ∃ admin, w.storage.admin = some admin ∧
      Stands tr base quote entry.price admin entry.ledger := by
  refine h.history (P := fun tr w => ∀ entry, entryOf w base quote = some entry →
    0 < entry.price ∧ ∃ admin, w.storage.admin = some admin ∧
      Stands tr base quote entry.price admin entry.ledger) ?_ ?_ entry hentry
  · intro entry hentry
    have hnone : entryOf w0 base quote = none := by
      unfold entryOf pricesFor allPrices
      rw [h0]
      rfl
    rw [hnone] at hentry
    cases hentry
  · intro tr m a m' _ ih hst entry hentry
    rcases step_entry base quote hst with
      ⟨env, admin, price, hcalls, hauth, -, hpositive, hadmin, hstored⟩ | ⟨hnot, hsame, hadmin⟩
    · cases hstored.symm.trans hentry
      refine ⟨hpositive, admin, hadmin, tr, _, [], env, rfl, hcalls, hauth, rfl, ?_⟩
      intro x hx
      cases hx
    · rw [hsame] at hentry
      obtain ⟨hpositive, admin, hstored, hstands⟩ := ih entry hentry
      refine ⟨hpositive, admin, ?_, hstands.snoc hnot⟩
      rw [hadmin.resolve_right (by rw [hstored]; simp), hstored]

/-- A price that stands is stored. -/
theorem entry_of_stands (h : Runs P d w0 tr w)
    (hstands : Stands tr base quote price admin ledger) :
    entryOf w base quote = some ⟨price, ledger⟩ := by
  obtain ⟨before, t, after, env, rfl, hcalls, -, rfl, hlast⟩ := hstands
  obtain ⟨-, -, hafter⟩ := h.around
  have heffect : Effect env t.pre (.setPrice admin base quote price) t.post := exec_effect hcalls.2
  have hstart : entryOf t.post base quote = some ⟨price, t.pre.sequence⟩ := by
    cases heffect with
    | published _ _ _ _ hentry => rw [hentry, if_pos ⟨rfl, rfl⟩]
  -- no later transaction publishes for the pair
  refine hafter.history (P := fun tr w => (∀ x ∈ tr, ∀ later, ¬ Tx.Publishes x base quote later) →
    entryOf w base quote = some ⟨price, t.pre.sequence⟩) (fun _ => hstart) ?_ hlast
  intro tr m a m' _ ih hst hlast
  rcases step_entry base quote hst with
    ⟨env', admin', price', hcalls', -⟩ | ⟨-, hsame, -⟩
  · exact absurd ⟨env', admin', hcalls'⟩ (hlast ⟨m, a, m'⟩ (by simp) price')
  · rw [hsame]
    exact ih fun x hx => hlast x (List.mem_append_left _ hx)

theorem getPrice_eq_ok (hne : base ≠ quote) : getPrice w base quote = .ok price ↔
    ∃ entry, entryOf w base quote = some entry ∧ entry.price = price ∧
      w.sequence ≤ entry.ledger + getMaxAge w := by
  simp only [getPrice, if_neg hne, entryFor, requireFresh, Result.bind_eq_ok, expect_eq_ok,
    panicIf_eq_ok, not_lt, Result.pure_eq_ok, entryOf]
  constructor
  · rintro ⟨entry, hentry, _, hfresh, hprice⟩
    exact ⟨entry, hentry, hprice, by omega⟩
  · rintro ⟨entry, hentry, hprice, hfresh⟩
    exact ⟨entry, hentry, (), by omega, hprice⟩

/-- A price that is read stands, is positive, and is from the admin, not too long ago. -/
theorem stands_of_getPrice (h0 : Genesis w0) (h : Runs P d w0 tr w) (hne : base ≠ quote)
    (hprice : getPrice w base quote = .ok price) :
    0 < price ∧ ∃ admin ledger, w.storage.admin = some admin ∧
      Stands tr base quote price admin ledger ∧ w.sequence ≤ ledger + getMaxAge w := by
  obtain ⟨entry, hentry, rfl, hfresh⟩ := (getPrice_eq_ok hne).mp hprice
  obtain ⟨hpositive, admin, hadmin, hstands⟩ := stands_of_entry h0 h hentry
  exact ⟨hpositive, admin, entry.ledger, hadmin, hstands, hfresh⟩

/-- A floor that a payment passed is that of the price its oracle answered. -/
theorem oracleFloor_answered {env : Env} {w : PaymentChannel.State}
    {send_token dest_token price_oracle : Address} {amount min_received : Int} {u : Unit}
    (hwired : w.storage.wired .po = some price_oracle)
    (h : PaymentChannel.requireOracleFloor env w send_token amount dest_token min_received
      = .ok u) :
    ∃ price, env.get_price price_oracle send_token dest_token = some price ∧
      PaymentChannel.oracleFloor amount price ≤ min_received := by
  have hprice : ∃ price, env.get_price price_oracle send_token dest_token = some price := by
    simp only [PaymentChannel.requireOracleFloor, Result.bind_eq_ok, expect_eq_ok,
      invokeContract_eq_ok] at h
    obtain ⟨oracle, horacle, price, ⟨_, hprice⟩, _⟩ := h
    cases hwired.symm.trans horacle
    exact ⟨price, hprice⟩
  obtain ⟨price, hprice⟩ := hprice
  exact ⟨price, hprice, PaymentChannel.requireOracleFloor_ok h hwired hprice⟩

end

/-! A local network: the admin publishes what a USDC is worth in EURC. A payment channel is wired to
that oracle, and an agent pays 40 USDC in EURC. -/

section

open LocalNet PaymentChannel.Scenario

abbrev Line := Soroban.Move LocalNet.platform LocalNet.deployed Call

def deployment : State := LocalNet.start Event Storage.fresh

theorem deployment_genesis : Genesis deployment := rfl

def setsUp : Line := signed [account 0] (.initializeOracle (account 0))

/-- A USDC is worth 0.9 EURC. -/
def publishes : Line := signed [account 0] (.setPrice (account 0) usdc eurc 9000000)

def script : List Line := [setsUp] ++ publishes :: [.wait 60]

/-- The oracle at the end of the script -/
def published : State := priceOracle.outcome deployment script

/-- A payment's call, answered by that oracle. -/
def pricedCall : Env :=
  { PaymentChannel.Scenario.callBy [agent] honestSwap with
    get_price := fun _ base quote => (getPrice published base quote).toOption }

def pricedPayment : Result (Int × PaymentChannel.State) :=
  PaymentChannel.payWithRoute pricedCall PaymentChannel.fundedChannel agent 1 recipient 40 eurc
    [⟨venue, usdc, eurc, 34⟩] 34 200 []

end

section

variable {P : Platform} {d : Deployment} {w0 w : State} {tr : List Tx} {base quote : Address}
  {price : Int}

/-- **What is read is what was published last**, by the admin, and it is positive and not older than
the current `max_age`. -/
theorem get_price_iff (h0 : Genesis w0) (h : Runs P d w0 tr w) (hne : base ≠ quote) :
    getPrice w base quote = .ok price ↔ 0 < price ∧ ∃ admin ledger, w.storage.admin = some admin ∧
      Stands tr base quote price admin ledger ∧ w.sequence ≤ ledger + getMaxAge w := by
  constructor
  · exact stands_of_getPrice h0 h hne
  · rintro ⟨-, admin, ledger, -, hstands, hfresh⟩
    exact (getPrice_eq_ok hne).mpr ⟨⟨price, ledger⟩, entry_of_stands h hstands, rfl, hfresh⟩

theorem get_price_iff_script : ∃ admin ledger, published.storage.admin = some admin ∧
    Stands (priceOracle.history deployment script) PaymentChannel.Scenario.usdc
      PaymentChannel.Scenario.eurc 9000000 admin ledger ∧
    published.sequence ≤ ledger + getMaxAge published :=
  ((get_price_iff deployment_genesis (Contract.script_runs script (by decide +kernel))
    (by decide)).mp (show getPrice published _ _ = _ by decide +kernel)).2

/-- **The price behind a payment in another asset**: what the recipient is promised is not below the
floor of a price that the oracle's admin published last for the two tokens, no more than `max_age`
ledgers ago. -/
theorem conversion_priced (h0 : Genesis w0) (hrun : Runs P d w0 tr w) {env : Env}
    {wc wc' : PaymentChannel.State} {agent recipient dest_token price_oracle : Address} {id : Nat}
    {amount min_received received : Int} {ch : PaymentChannel.Channel}
    (hwired : wc.storage.wired .po = some price_oracle)
    (hanswers : ∀ base quote,
      env.get_price price_oracle base quote = (getPrice w base quote).toOption)
    (hl : (PaymentChannel.loadChannels wc).lookup id = some ch) (hother : dest_token ≠ ch.token)
    (hpaid : (∃ memo, PaymentChannel.payWithConversion env wc agent id recipient amount dest_token
        min_received memo = .ok (received, wc')) ∨
      ∃ route valid_until_ledger memo, PaymentChannel.payWithRoute env wc agent id recipient amount
        dest_token route min_received valid_until_ledger memo = .ok (received, wc')) :
    ∃ price admin ledger, 0 < price ∧ w.storage.admin = some admin ∧
      Stands tr ch.token dest_token price admin ledger ∧ w.sequence ≤ ledger + getMaxAge w ∧
      PaymentChannel.oracleFloor amount price ≤ min_received := by
  have hchecked : ∃ u, PaymentChannel.requireOracleFloor env wc ch.token amount dest_token
      min_received = .ok u := by
    rcases hpaid with ⟨memo, hpaid⟩ | ⟨route, valid_until_ledger, memo, hpaid⟩
    · obtain ⟨ch₁, _, paid, hl₁, -, hpaid, -⟩ := PaymentChannel.payWithConversion_ok hpaid
      cases hl.symm.trans hl₁
      have hconversion := hpaid.resolve_left fun hsame => hother hsame.1
      simp only [PaymentChannel.executeConversion, Result.bind_eq_ok] at hconversion
      obtain ⟨_, _, _, hfloor, _⟩ := hconversion
      exact ⟨_, hfloor⟩
    · obtain ⟨ch₁, _, paid, hl₁, -, hpaid, -⟩ := PaymentChannel.payWithRoute_ok hpaid
      cases hl.symm.trans hl₁
      have hroute := hpaid.resolve_left fun hsame => hother hsame.1
      simp only [PaymentChannel.executeRoute, Result.bind_eq_ok, panicIf_eq_ok] at hroute
      obtain ⟨_, _, _, _, dest, _, _, hdest, _, hfloor, _⟩ := hroute
      rw [not_not] at hdest
      subst hdest
      exact ⟨_, hfloor⟩
  obtain ⟨u, hchecked⟩ := hchecked
  obtain ⟨price, hanswer, hfloor⟩ := oracleFloor_answered hwired hchecked
  rw [hanswers] at hanswer
  have hread : getPrice w ch.token dest_token = .ok price := by
    cases hget : getPrice w ch.token dest_token with
    | ok read =>
        rw [hget] at hanswer
        cases hanswer
        rfl
    | error e =>
        rw [hget] at hanswer
        cases hanswer
  obtain ⟨hpositive, admin, ledger, hadmin, hstands, hfresh⟩ :=
    stands_of_getPrice h0 hrun (Ne.symm hother) hread
  exact ⟨price, admin, ledger, hpositive, hadmin, hstands, hfresh, hfloor⟩

theorem conversion_priced_script : ∃ price admin ledger, 0 < price ∧
    published.storage.admin = some admin ∧
    Stands (priceOracle.history deployment script) PaymentChannel.Scenario.usdc
      PaymentChannel.Scenario.eurc price admin ledger ∧
    published.sequence ≤ ledger + getMaxAge published ∧
    PaymentChannel.oracleFloor 40 price ≤ 34 := by
  have hok : pricedPayment.isOk = true := by decide +kernel
  obtain ⟨⟨received, w'⟩, hpaid⟩ := Result.exists_of_isOk hok
  have hwired : PaymentChannel.fundedChannel.storage.wired .po
      = some PaymentChannel.Scenario.oracle := by decide +kernel
  exact conversion_priced deployment_genesis (Contract.script_runs script (by decide +kernel))
    hwired (fun _ _ => rfl)
    PaymentChannel.fundedChannel_lookup (by decide) (.inr ⟨_, _, _, hpaid⟩)

end

end StellarAgent.PriceOracle
