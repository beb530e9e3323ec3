import StellarAgent.Fleet.Exclusivity
import StellarAgent.Fleet.Moves

set_option autoImplicit false

/-! # Resizing

After the last `resize(n)` has resolved, a pool all of whose leases are released should hold `n`
entries. From above this is always so (`Resolves.left`): what is idle and not about to be met by the
loop of `resize` is at most `n`. From below the entries and the creations under way have to stay at
least `n` (`Pledged.after`), and that is lost where an entry goes although there are no more than
`n`: at the release of a lease that an earlier `resize` has marked, for instance.
-/

namespace StellarAgent.Fleet

open Lib Shelf

/-! ## From above -/

/-- The idle entries of the map, but for those that `resize` still comes to. -/
def Shelf.idle (shelf : Shelf) (ahead : List ℕ) : ℕ :=
  shelf.entries.countP fun entry => !(shelf.heap entry).leased && decide (entry ∉ ahead)

/-- Idle entries of the one shelf among those of the other -/
theorem Shelf.idle_le {shelf shelf' : Shelf} {ahead ahead' : List ℕ}
    (hsub : shelf'.entries.Sublist shelf.entries)
    (hidle : ∀ entry ∈ shelf'.entries, (shelf'.heap entry).leased = false → entry ∉ ahead' →
      (shelf.heap entry).leased = false ∧ entry ∉ ahead) :
    shelf'.idle ahead' ≤ shelf.idle ahead := by
  unfold Shelf.idle
  refine (List.countP_mono_left (fun entry hentry h => ?_)).trans hsub.countP_le
  rw [Bool.and_eq_true, decide_eq_true_eq, Bool.not_eq_true'] at h ⊢
  exact hidle entry hentry h.1 h.2

theorem Shelf.mem_take {shelf : Shelf} {entry other : ℕ} (h : other ∈ (shelf.take entry).entries) :
    other ≠ entry := by
  rintro rfl
  have hne := (List.mem_filter.mp h).2
  simp at hne

/-- **No move makes more than the target idle.** -/
theorem Shelf.idle_move {target : ℕ} {ahead : List ℕ} {shelf shelf' : Shelf}
    (hmove : Move target shelf shelf') (h : shelf.idle ahead ≤ target) :
    shelf'.idle ahead ≤ target := by
  cases hmove with
  | @mark entry _ =>
      have hle : (shelf.mark entry).idle ahead ≤ shelf.idle ahead := by
        refine idle_le (List.Sublist.refl _) (fun other _ hidle hahead => ⟨?_, hahead⟩)
        rw [← hidle, mark_leased]
      exact hle.trans h
  | @lease entry _ hentry =>
      have hle : (shelf.lease entry).idle ahead ≤ shelf.idle ahead := by
        refine idle_le (List.Sublist.refl _) (fun other _ hidle hahead => ⟨?_, hahead⟩)
        by_cases hsame : other = entry
        · rw [hsame]
          exact hentry
        · rw [← hidle, lease_heap_of_ne hsame]
      exact hle.trans h
  | keep _ _ hlength => exact List.countP_le_length.trans hlength
  | @giveBack lease entry now _ =>
      have hle : ((shelf.free lease entry now).take entry).idle ahead ≤ shelf.idle ahead := by
        refine idle_le List.filter_sublist (fun other hother hidle hahead => ⟨?_, hahead⟩)
        have hsame : (shelf.free lease entry now).heap other = shelf.heap other :=
          free_heap_of_ne (mem_take hother) now
        rw [← hsame, ← hidle]
        rfl
      exact hle.trans h
  | @take entry _ =>
      have hle : (shelf.take entry).idle ahead ≤ shelf.idle ahead :=
        idle_le List.filter_sublist (fun _ _ hidle hahead => ⟨hidle, hahead⟩)
      exact hle.trans h
  | add _ hroom =>
      refine List.countP_le_length.trans ?_
      show (shelf.entries ++ [shelf.nextEntry]).length ≤ target
      rw [List.length_append, List.length_singleton]
      exact hroom

/-- What a call of `resize` to `size` leaves idle when it has come to this task, or to its end. -/
def Left (size : ℕ) : Option Task → Shelf → Prop
  | none, shelf => shelf.idle [] ≤ size
  | some (.resize rest excess _), shelf => shelf.idle (rest.take excess.toNat) ≤ size
  | some (.creations target _), _ => target = size
  | _, _ => False

theorem Left.moves {size : ℕ} {next : Option Task} {shelf shelf' : Shelf}
    (h : Left size next shelf) (hmoves : Moves size shelf shelf') : Left size next shelf' := by
  cases next with
  | none => exact hmoves.keeps (fun _ _ hmove => idle_move hmove) h
  | some task =>
      cases task with
      | resize rest excess called =>
          exact hmoves.keeps (P := fun shelf => shelf.idle (rest.take excess.toNat) ≤ size)
            (fun _ _ hmove => idle_move hmove) h
      | creations target ids => exact h
      | create id => exact h
      | surplus id => exact h
      | release called => exact h

variable {pool pool' : Pool}

/-- The loop of `resize` ends, or is suspended again. -/
theorem Pool.shrink_left {size : ℕ} {excess : ℤ} {rest : List ℕ}
    (h : pool.shelf.idle (rest.take excess.toNat) ≤ size) :
    ∃ next : Option Task, (pool.shrink excess rest).tasks = pool.tasks ++ next.toList ∧
      Left size next (pool.shrink excess rest).shelf := by
  induction rest generalizing pool excess with
  | nil =>
      rw [List.take_nil] at h
      exact ⟨none, (List.append_nil _).symm, h⟩
  | cons entry rest ih =>
      rw [Pool.shrink]
      by_cases hexcess : excess ≤ 0
      · rw [if_pos hexcess]
        rw [Int.toNat_of_nonpos hexcess, List.take_zero] at h
        exact ⟨none, (List.append_nil _).symm, h⟩
      · rw [if_neg hexcess]
        have hcount : excess.toNat = (excess - 1).toNat + 1 := by omega
        rw [hcount, List.take_succ_cons] at h
        by_cases hleased : (pool.heap entry).leased
        · rw [if_pos hleased]
          have hle : (pool.shelf.mark entry).idle (rest.take (excess - 1).toNat) ≤
              pool.shelf.idle (entry :: rest.take (excess - 1).toNat) := by
            refine idle_le (List.Sublist.refl _) (fun other _ hidle hahead => ?_)
            rw [mark_leased] at hidle
            rw [List.mem_cons, not_or]
            refine ⟨hidle, ?_, hahead⟩
            rintro rfl
            exact absurd (hidle.symm.trans hleased) (by decide)
          have hmarked : (pool.setEntry entry
              { pool.heap entry with retire := true }).shelf.idle
                (rest.take (excess - 1).toNat) ≤ size := hle.trans h
          exact ih hmarked
        · rw [if_neg hleased]
          refine ⟨some (.resize rest (excess - 1) (pool.reclaim entry).1), ?_, ?_⟩
          · show (pool.reclaim entry).2.tasks ++ _ = _
            rw [reclaim_tasks]
            rfl
          · show Shelf.idle (Pool.shelf (pool.reclaim entry).2) _ ≤ size
            rw [Pool.shelf_reclaim]
            have hle : (pool.shelf.take entry).idle (rest.take (excess - 1).toNat) ≤
                pool.shelf.idle (entry :: rest.take (excess - 1).toNat) := by
              refine idle_le List.filter_sublist (fun other hother hidle hahead => ?_)
              rw [List.mem_cons, not_or]
              exact ⟨hidle, mem_take hother, hahead⟩
            exact hle.trans h

/-- The loop begins with all but `size` entries before it. -/
theorem Pool.resizeCreated_left (size : ℕ) :
    ∃ next : Option Task, (pool.resizeCreated size).tasks = pool.tasks ++ next.toList ∧
      Left size next (pool.resizeCreated size).shelf := by
  have hperm : (pool.byLastUse pool.entries).Perm pool.entries := List.perm_insertionSort _ _
  have hall : pool.shelf.idle [] ≤ pool.entries.length := List.countP_le_length
  unfold Pool.resizeCreated
  dsimp only
  split
  · refine ⟨none, (List.append_nil _).symm, ?_⟩
    show pool.shelf.idle [] ≤ size
    omega
  · rename_i hexcess
    refine Pool.shrink_left ?_
    let ahead := pool.byLastUse pool.entries
    let count := ((pool.entries.length : ℤ) - size).toNat
    let spared : ℕ → Bool := fun entry =>
      !(pool.heap entry).leased && decide (entry ∉ ahead.take count)
    have hmet : (ahead.take count).countP spared = 0 := by
      refine List.countP_eq_zero.mpr (fun entry hentry => ?_)
      simp [spared, hentry]
    have hlength : ahead.length = pool.entries.length := hperm.length_eq
    have hrest : (ahead.drop count).countP spared ≤ size := by
      refine List.countP_le_length.trans ?_
      rw [List.length_drop, hlength]
      omega
    calc pool.entries.countP spared = ahead.countP spared := (hperm.countP_eq spared).symm
      _ = (ahead.take count ++ ahead.drop count).countP spared := by rw [List.take_append_drop]
      _ ≤ size := by
        rw [List.countP_append, hmet]
        omega

/-- A call of `resize` that has come to a task (or to its end) resolves: its tasks go on one after
another, with other actions between them. -/
inductive Resolves : Option Task → List (Transition Pool PoolAction) → Prop
  | ended {tr : List (Transition Pool PoolAction)} : Resolves none tr
  | meanwhile {next : Option Task} {x : Transition Pool PoolAction}
      {tr : List (Transition Pool PoolAction)} : Resolves next tr → Resolves next (x :: tr)
  | goes_on {task : Task} {next : Option Task} {x : Transition Pool PoolAction}
      {tr : List (Transition Pool PoolAction)} : x.act = .resumed task (.ok ()) →
      x.post.tasks = x.pre.tasks.erase task ++ next.toList → Resolves next tr →
      Resolves (some task) (x :: tr)

theorem Left.goes_on {size : ℕ} {task : Task} {next : Option Task}
    (h : Left size (some task) pool.shelf)
    (hstep : PoolStep pool (.resumed task (.ok ())) pool')
    (hnext : pool'.tasks = pool.tasks.erase task ++ next.toList) : Left size next pool'.shelf := by
  obtain ⟨_, hsome⟩ := Option.ite_none_right_eq_some.mp hstep
  have hfound : ∃ found : Option Task, pool'.tasks = pool.tasks.erase task ++ found.toList ∧
      Left size found pool'.shelf := by
    cases task with
    | resize rest excess called =>
        obtain rfl := Option.some.inj hsome
        exact Pool.shrink_left h
    | creations target ids =>
        obtain ⟨_, hsome⟩ := Option.ite_none_right_eq_some.mp hsome
        obtain rfl := Option.some.inj hsome
        obtain rfl : target = size := h
        exact Pool.resizeCreated_left target
    | create id => exact h.elim
    | surplus id => exact h.elim
    | release called => exact h.elim
  obtain ⟨found, htasks, hleft⟩ := hfound
  have hsame : found = next := by
    have hlist := List.append_cancel_left (htasks.symm.trans hnext)
    cases found <;> cases next <;> simp_all
  rw [← hsame]
  exact hleft

/-- **An action is quiet** if it is no `resize`, the pool is open after it, and no waiter has made
the pool grow past its target. -/
structure Quiet (x : Transition Pool PoolAction) : Prop where
  no_resize : ∀ size, x.act ≠ .resize size
  is_open : x.post.closed = false
  target : x.post.targetSize = x.pre.targetSize

/-- **From above**: after the call has resolved, no more than `size` entries are idle. -/
theorem Resolves.left {size : ℕ} {next : Option Task} {tr : List (Transition Pool PoolAction)}
    (h : Resolves next tr) (hrun : Run PoolStep pool tr pool') (hquiet : ∀ x ∈ tr, Quiet x)
    (htarget : pool.targetSize = size) (hleft : Left size next pool.shelf) :
    Left size none pool'.shelf := by
  induction h generalizing pool with
  | ended =>
      obtain ⟨hdone, _⟩ := (hrun.safety (Q := fun _ => True)
        (I := fun pool => Left size none pool.shelf ∧ pool.targetSize = size) hquiet
        ⟨hleft, htarget⟩ (by
          rintro m action m' ⟨hm, hsize⟩ hstep hcalm
          have hmoves := Pool.after_moves hstep
          rw [hsize] at hmoves
          exact ⟨⟨hm.moves hmoves, hcalm.target.trans hsize⟩, trivial⟩))
      exact hdone.1
  | meanwhile _ ih =>
      obtain ⟨rfl, hstep, hrest⟩ := hrun.cons_inv
      have hmoves := Pool.after_moves hstep
      rw [htarget] at hmoves
      refine ih hrest (fun y hy => hquiet y (List.mem_cons_of_mem _ hy)) ?_ (hleft.moves hmoves)
      exact (hquiet _ List.mem_cons_self).target.trans htarget
  | goes_on hact htasks _ ih =>
      obtain ⟨rfl, hstep, hrest⟩ := hrun.cons_inv
      rw [hact] at hstep
      refine ih hrest (fun y hy => hquiet y (List.mem_cons_of_mem _ hy)) ?_
        (hleft.goes_on hstep htasks)
      exact (hquiet _ List.mem_cons_self).target.trans htarget

/-! ## From below -/

def Task.isCreate : Task → Bool
  | .create _ => true
  | _ => false

namespace Pool

/-- The creations that may still add an entry; the surplus ones no longer do. -/
def creates (pool : Pool) : ℕ := pool.tasks.countP Task.isCreate

/-- The entries, and the creations that may still add one. -/
def pledged (pool : Pool) : ℕ := pool.entries.length + pool.creates

/-- A task that is no creation is started. -/
theorem start_pledged {task : Task} (htask : task.isCreate = false) :
    Pool.pledged { pool with tasks := pool.tasks ++ [task] } = pool.pledged := by
  show pool.entries.length + (pool.tasks ++ [task]).countP Task.isCreate = _
  rw [List.countP_append, List.countP_singleton, htask]
  rfl

theorem startCreates_pledged (n : ℕ) :
    (pool.startCreates n).2.pledged = pool.pledged + n := by
  induction n generalizing pool with
  | zero => rfl
  | succ n ih =>
      have hone : pool.startCreate.2.pledged = pool.pledged + 1 := by
        show pool.entries.length + (pool.tasks ++ [Task.create pool.nextCreation]).countP _ = _
        rw [List.countP_append, ← Nat.add_assoc]
        rfl
      have hrest : (startCreates pool.startCreate.2 n).2.pledged = _ := ih
      show (startCreates pool.startCreate.2 n).2.pledged = _
      rw [hrest, hone]
      omega

theorem grow_pledged : pool.pledged ≤ pool.grow.pledged := by
  unfold Pool.grow
  dsimp only
  split
  · rw [startCreates_pledged]
    exact Nat.le_add_right _ _
  · exact le_rfl

theorem grant_pledged (waiters : List Waiter) : (pool.grant waiters).pledged = pool.pledged := by
  induction waiters generalizing pool with
  | nil => rfl
  | cons waiter waiters ih =>
      rw [Pool.grant]
      cases pool.availableEntry with
      | none => rfl
      | some entry => exact ih

theorem dispatch_pledged : pool.pledged ≤ pool.dispatch.pledged := by
  have hgrow : (pool.grant pool.waiters).pledged ≤ pool.dispatch.pledged := grow_pledged
  rw [grant_pledged] at hgrow
  exact hgrow

theorem failCreate_pledged (error : Option ChannelPoolErrorCode) :
    (pool.failCreate error).pledged = pool.pledged := by
  unfold Pool.failCreate
  split <;> rfl

theorem finishCreate_pledged (id : ℕ) (fulfilled : Bool) :
    pool.pledged ≤ (pool.finishCreate id fulfilled).pledged := by
  unfold Pool.finishCreate
  refine le_trans (le_of_eq ?_) dispatch_pledged
  rfl

theorem handOver_pledged (account : ChannelAccount) :
    (pool.handOver account).pledged = pool.pledged := by
  unfold Pool.handOver
  split <;> rfl

/-- `#reclaim` finds its address in the map. -/
def Present (pool : Pool) (entry : ℕ) : Prop :=
  ∃ other ∈ pool.entries, pool.address other = pool.address entry

/-- `#reclaim` takes out one entry at most. -/
theorem reclaim_length (hkeys : (pool.entries.map pool.address).Nodup) {entry bound : ℕ}
    (hbound : bound ≤ pool.entries.length)
    (hpresent : pool.Present entry → bound < pool.entries.length) :
    bound ≤ (pool.reclaim entry).2.entries.length := by
  unfold Pool.reclaim
  split
  · rename_i hfound
    have hlt := hpresent hfound
    dsimp only
    rw [handOver_entries]
    show bound ≤ (pool.entries.filter fun other => pool.address other ≠ pool.address entry).length
    have hone : (pool.entries.map pool.address).count (pool.address entry) ≤ 1 :=
      List.nodup_iff_count_le_one.mp hkeys _
    have hsplit := List.length_eq_countP_add_countP (l := pool.entries)
      fun other => decide (pool.address other ≠ pool.address entry)
    rw [List.count, List.countP_map] at hone
    have hsame : pool.entries.countP (fun other =>
        decide (¬ decide (pool.address other ≠ pool.address entry) = true)) =
          pool.entries.countP ((· == pool.address entry) ∘ pool.address) := by
      refine List.countP_congr (fun other _ => ?_)
      simp
    rw [hsame] at hsplit
    rw [← List.countP_eq_length_filter]
    omega
  · exact hbound

theorem reclaim_pledged (hkeys : (pool.entries.map pool.address).Nodup) {entry bound : ℕ}
    (hbound : bound ≤ pool.pledged) (hpresent : pool.Present entry → bound < pool.pledged) :
    bound ≤ (pool.reclaim entry).2.pledged := by
  have hlength : bound - pool.creates ≤ (pool.reclaim entry).2.entries.length := by
    refine reclaim_length hkeys (Nat.sub_le_of_le_add hbound) (fun hfound => ?_)
    have hlt := hpresent hfound
    obtain ⟨other, hother, _⟩ := hfound
    have hpos := List.length_pos_of_mem hother
    have hpledged : pool.pledged = pool.entries.length + pool.creates := rfl
    omega
  show bound ≤ (pool.reclaim entry).2.entries.length + (pool.reclaim entry).2.creates
  have hcreates : (pool.reclaim entry).2.creates = pool.creates := by
    unfold creates
    rw [reclaim_tasks]
  omega

theorem lease_pledged (timeoutMs : Option ℤ) (signal aborted : Bool) :
    pool.pledged ≤ (pool.lease timeoutMs signal aborted).2.pledged := by
  unfold Pool.lease
  split
  · exact le_rfl
  · split
    · exact le_rfl
    · split
      · exact le_rfl
      · dsimp only
        split
        · exact le_rfl
        · refine le_trans (le_of_eq ?_) dispatch_pledged
          rfl

theorem rejectWaiter_pledged (code : ChannelPoolErrorCode) (waiter : Waiter) :
    (pool.rejectWaiter code waiter).pledged = pool.pledged := by
  unfold Pool.rejectWaiter
  split <;> rfl

theorem shrink_pledged {bound : ℕ} {excess : ℤ} {rest : List ℕ}
    (hkeys : (pool.entries.map pool.address).Nodup) (hbound : bound ≤ pool.pledged)
    (hidle : ∀ entry ∈ pool.firstIdle excess rest, pool.Present entry → bound < pool.pledged) :
    bound ≤ (pool.shrink excess rest).pledged := by
  induction rest generalizing pool excess with
  | nil => exact hbound
  | cons entry rest ih =>
      rw [firstIdle] at hidle
      rw [Pool.shrink]
      split
      · exact hbound
      · rename_i hexcess
        rw [if_neg hexcess] at hidle
        by_cases hleased : (pool.heap entry).leased
        · rw [if_pos hleased] at hidle ⊢
          let marked := pool.setEntry entry { pool.heap entry with retire := true }
          have haddress : marked.address = pool.address := retire_address entry
          have hkeys' : (marked.entries.map marked.address).Nodup := by
            rw [haddress]
            exact hkeys
          refine ih hkeys' hbound ?_
          intro other hother hpresent
          rw [retire_firstIdle] at hother
          unfold Present at hpresent
          rw [retire_address] at hpresent
          exact hidle other hother hpresent
        · rw [if_neg hleased] at hidle ⊢
          dsimp only
          rw [start_pledged rfl]
          exact reclaim_pledged hkeys hbound (hidle entry rfl)

theorem dispatch_entries : pool.dispatch.entries = pool.entries := by
  have hgrant : ∀ (waiters : List Waiter) (pool : Pool),
      (pool.grant waiters).entries = pool.entries := by
    intro waiters
    induction waiters with
    | nil => exact fun _ => rfl
    | cons waiter waiters ih =>
        intro pool
        rw [Pool.grant]
        cases pool.availableEntry with
        | none => rfl
        | some entry => exact ih _
  have hgrow : (pool.grant pool.waiters).grow.shelf = (pool.grant pool.waiters).shelf := shelf_grow
  rw [← hgrant pool.waiters pool]
  exact congrArg Shelf.entries hgrow

/-- **A release takes out an entry that is marked, or one too many.** -/
theorem release_frees (lease : ℕ) (outcome : ChannelLeaseOutcome) (now : ℤ)
    (hopen : pool.closed = false) :
    (pool.release lease outcome now).entries = pool.entries ∧
        pool.pledged ≤ (pool.release lease outcome now).pledged ∨
      ∃ (entry : ℕ) (freed : Pool), pool.held.lookup lease = some entry ∧
        freed.entries = pool.entries ∧ freed.address = pool.address ∧ freed.pledged = pool.pledged ∧
        ((pool.heap entry).retire = true ∨ pool.entries.length > pool.targetSize) ∧
        (pool.release lease outcome now).entries = (freed.reclaim entry).2.entries ∧
        (pool.release lease outcome now).pledged = (freed.reclaim entry).2.pledged := by
  unfold Pool.release
  cases hlookup : pool.held.lookup lease with
  | none => exact Or.inl ⟨rfl, le_rfl⟩
  | some entry =>
      cases outcome
      all_goals
        dsimp only
        split
        · rename_i hback
          rw [setEntry_heap_self] at hback
          refine Or.inr ⟨entry, _, rfl, ?_, ?_, ?_, ?_, rfl, start_pledged rfl⟩
          · rfl
          · exact setEntry_address rfl
          · rfl
          · rcases hback with hretire | hclosed | hlength
            · exact Or.inl hretire
            · rw [show pool.closed = true from hclosed] at hopen
              cases hopen
            · exact Or.inr hlength
        · refine Or.inl ⟨dispatch_entries, le_trans (le_of_eq ?_) dispatch_pledged⟩
          rfl

variable {lease : ℕ} (outcome : ChannelLeaseOutcome) (now : ℤ)
  (hkeys : (pool.entries.map pool.address).Nodup) (hopen : pool.closed = false)
  (hmarked : ∀ entry ∈ pool.held.lookup lease, (pool.heap entry).retire = true →
    pool.Present entry → pool.targetSize < pool.entries.length)

include hkeys hopen hmarked

theorem release_pledged (hbound : pool.targetSize ≤ pool.pledged) :
    pool.targetSize ≤ (pool.release lease outcome now).pledged := by
  rcases release_frees lease outcome now hopen with ⟨_, hsame⟩ |
    ⟨entry, freed, hlookup, hentries, haddress, hpledged, hback, _, hresult⟩
  · exact hbound.trans hsame
  · rw [hresult]
    refine reclaim_pledged ?_ ?_ ?_
    · rw [hentries, haddress]
      exact hkeys
    · rw [hpledged]
      exact hbound
    · intro hpresent
      unfold Present at hpresent
      rw [hentries, haddress] at hpresent
      have hlength : pool.targetSize < pool.entries.length := by
        rcases hback with hretire | hlength
        · exact hmarked entry hlookup hretire hpresent
        · exact hlength
      rw [hpledged]
      exact hlength.trans_le (Nat.le_add_right _ _)

/-- Reclamation on release does not take the pool below its target. -/
theorem release_length (hbound : pool.targetSize ≤ pool.entries.length) :
    pool.targetSize ≤ (pool.release lease outcome now).entries.length := by
  rcases release_frees lease outcome now hopen with ⟨hsame, _⟩ |
    ⟨entry, freed, hlookup, hentries, haddress, _, hback, hresult, _⟩
  · rw [hsame]
    exact hbound
  · rw [hresult]
    refine reclaim_length ?_ ?_ ?_
    · rw [hentries, haddress]
      exact hkeys
    · rw [hentries]
      exact hbound
    · intro hpresent
      unfold Present at hpresent
      rw [hentries, haddress] at hpresent
      rw [hentries]
      rcases hback with hretire | hlength
      · exact hmarked entry hlookup hretire hpresent
      · exact hlength

omit hkeys hopen hmarked

theorem created_pledged {id : ℕ} {answer : Except (Option ChannelPoolErrorCode) ChannelAccount}
    {now : ℤ} (hopen : pool.closed = false) (hbound : pool.targetSize ≤ pool.pledged + 1)
    (herror : ∀ error, answer = .error error → pool.targetSize ≤ pool.pledged)
    (hthrows : ∀ account, answer = .ok account → pool.entries.length < pool.targetSize →
      pool.add account now = none → pool.targetSize ≤ pool.pledged) :
    pool.targetSize ≤ (pool.created id answer now).pledged := by
  cases answer with
  | error error =>
      refine (herror error rfl).trans (le_trans (le_of_eq ?_) (finishCreate_pledged id false))
      exact (failCreate_pledged error).symm
  | ok account =>
      rw [Pool.created]
      split
      · rename_i hfull
        rcases hfull with hclosed | hlength
        · rw [hopen] at hclosed
          cases hclosed
        · refine hlength.trans ?_
          show pool.entries.length ≤ (pool.handOver account).entries.length + _
          rw [handOver_entries]
          exact Nat.le_add_right _ _
      · rename_i hroom
        push Not at hroom
        cases hadd : pool.add account now with
        | none =>
            have hthrown := hthrows account rfl hroom.2 hadd
            refine hthrown.trans (le_trans (le_of_eq ?_) (finishCreate_pledged id false))
            exact (failCreate_pledged none).symm
        | some added =>
            obtain ⟨_, rfl⟩ := add_some hadd
            refine hbound.trans (le_trans (le_of_eq ?_) (finishCreate_pledged id true))
            show _ = (pool.entries ++ [pool.nextEntry]).length + pool.creates
            rw [List.length_append, List.length_singleton, Nat.add_right_comm]
            rfl

end Pool

/-- **The condition on an action.** An entry that is marked is only given back, and `resize` only
takes an entry out, while the pool has more than its target; and a creation only fails while the
entries and the creations under way are more than the target. -/
def Spares (x : Transition Pool PoolAction) : Prop :=
  match x.act with
  | .release lease _ _ | .workEnded lease _ _ =>
      ∀ entry ∈ x.pre.held.lookup lease, (x.pre.heap entry).retire = true → x.pre.Present entry →
        x.pre.targetSize < x.pre.entries.length
  | .resumed (.resize rest excess _) (.ok ()) =>
      ∀ entry ∈ x.pre.firstIdle excess rest, x.pre.Present entry →
        x.pre.targetSize < x.pre.entries.length
  | .resumed (.creations size _) (.ok ()) =>
      ∀ entry ∈ x.pre.firstIdle (x.pre.entries.length - size) (x.pre.byLastUse x.pre.entries),
        x.pre.targetSize < x.pre.entries.length
  | .created _ (.error _) _ => x.pre.targetSize < x.pre.pledged
  | .created _ (.ok account) now =>
      x.pre.entries.length < x.pre.targetSize → x.pre.add account now = none →
        x.pre.targetSize < x.pre.pledged
  | _ => True

/-- The creations that a call of `resize` counts on can all still add an entry. -/
def CountsOnCreations (pool : Pool) (size : ℤ) : Prop :=
  pool.creating = pool.creates ∨ size ≤ pool.pledged

theorem Pool.retireAll_closed (rest : List ℕ) : (pool.retireAll rest).closed = pool.closed := by
  induction rest generalizing pool with
  | nil => rfl
  | cons entry rest ih =>
      rw [Pool.retireAll]
      split
      · exact ih
      · rw [ih]
        unfold Pool.reclaim Pool.handOver
        split
        · dsimp only
          split <;> rfl
        · rfl

theorem Pool.close_closed : pool.close.closed = true := by
  unfold Pool.close
  split
  · assumption
  · dsimp only
    rw [retireAll_closed, settle_foldl]

theorem Pool.tasks_firstIdle (tasks : List Task) (excess : ℤ) (rest : List ℕ) :
    Pool.firstIdle { pool with tasks } excess rest = pool.firstIdle excess rest := by
  have hheap : Pool.heap { pool with tasks } = pool.heap := rfl
  exact firstIdle_congr hheap excess rest

/-- A task goes on. -/
theorem Pool.taken_pledged {task : Task} (htask : task ∈ pool.tasks) :
    Pool.pledged { pool with tasks := pool.tasks.erase task } + (if task.isCreate then 1 else 0)
      = pool.pledged := by
  have hcount := List.countP_erase Task.isCreate pool.tasks task
  show pool.entries.length + (pool.tasks.erase task).countP Task.isCreate + _ =
    pool.entries.length + pool.tasks.countP Task.isCreate
  rw [hcount]
  by_cases hcreate : task.isCreate = true
  · have hpos : 0 < pool.tasks.countP Task.isCreate :=
      List.countP_pos_iff.mpr ⟨task, htask, hcreate⟩
    rw [if_pos ⟨htask, hcreate⟩, if_pos hcreate]
    omega
  · rw [if_neg (fun h => hcreate h.2), if_neg hcreate]
    omega

/-- **From below.** No action takes the entries and the creations under the target. -/
theorem Pool.after_pledged {action : PoolAction} (hstep : PoolStep pool action pool')
    (htidy : pool.shelf.Tidy) (hopen : pool.closed = false)
    (hbound : pool.targetSize ≤ pool.pledged) (hquiet : Quiet ⟨pool, action, pool'⟩)
    (hspares : Spares ⟨pool, action, pool'⟩) : pool.targetSize ≤ pool'.pledged := by
  have hkeys : (pool.entries.map pool.address).Nodup := htidy.keys
  have hmore : pool.targetSize < pool.entries.length → pool.targetSize < pool.pledged :=
    fun h => h.trans_le (Nat.le_add_right _ _)
  cases action with
  | lease timeoutMs signal aborted =>
      obtain rfl := Option.some.inj hstep
      exact hbound.trans (lease_pledged timeoutMs signal aborted)
  | release lease outcome now =>
      obtain rfl := Option.some.inj hstep
      exact release_pledged outcome now hkeys hopen hspares hbound
  | workEnded lease succeeded now =>
      obtain rfl := Option.some.inj hstep
      exact release_pledged _ now hkeys hopen hspares hbound
  | resize size => exact absurd rfl (hquiet.no_resize size)
  | close =>
      obtain rfl := Option.some.inj hstep
      have hclosed : pool.close.closed = false := hquiet.is_open
      rw [close_closed] at hclosed
      cases hclosed
  | timeout waiter =>
      obtain rfl := Option.some.inj hstep
      unfold Pool.timeout
      split
      · rw [rejectWaiter_pledged]
        exact hbound
      · exact hbound
  | abort waiter =>
      obtain rfl := Option.some.inj hstep
      unfold Pool.abort
      split
      · rw [rejectWaiter_pledged]
        exact hbound
      · exact hbound
  | created id answer now =>
      obtain ⟨htask, hsome⟩ := Option.ite_none_right_eq_some.mp hstep
      obtain rfl := Option.some.inj hsome
      let taken : Pool := { pool with tasks := pool.tasks.erase (.create id) }
      have hone : taken.pledged + 1 = pool.pledged := taken_pledged htask
      have hroom : taken.targetSize ≤ taken.pledged + 1 := hbound.trans_eq hone.symm
      have hcreated : taken.targetSize ≤ (taken.created id answer now).pledged := by
        refine created_pledged hopen hroom ?_ ?_
        · rintro error rfl
          have hlt : pool.targetSize < pool.pledged := hspares
          exact Nat.le_of_lt_succ (hlt.trans_eq hone.symm)
        · rintro account rfl hlength hadd
          have hthrown := add_none_iff.mp hadd
          have hthrows : pool.add account now = none := add_none_iff.mpr hthrown
          have hlt : pool.targetSize < pool.pledged := hspares hlength hthrows
          exact Nat.le_of_lt_succ (hlt.trans_eq hone.symm)
      exact hcreated
  | resumed task answer =>
      obtain ⟨htask, hsome⟩ := Option.ite_none_right_eq_some.mp hstep
      have hkept := taken_pledged htask
      cases task with
      | create id => cases hsome
      | surplus id =>
          have hbound' := hbound.trans_eq hkept.symm
          cases answer with
          | ok _ =>
              obtain rfl := Option.some.inj hsome
              exact hbound'.trans (finishCreate_pledged id true)
          | error error =>
              obtain ⟨_, hsome⟩ := Option.ite_none_right_eq_some.mp hsome
              obtain rfl := Option.some.inj hsome
              refine hbound'.trans (le_trans (le_of_eq ?_) (finishCreate_pledged id false))
              exact (failCreate_pledged error).symm
      | release called =>
          have hbound' := hbound.trans_eq hkept.symm
          cases answer with
          | ok _ =>
              obtain rfl := Option.some.inj hsome
              exact hbound'.trans dispatch_pledged
          | error error =>
              obtain ⟨_, hsome⟩ := Option.ite_none_right_eq_some.mp hsome
              obtain rfl := Option.some.inj hsome
              exact hbound'
      | creations size ids =>
          have hbound' := hbound.trans_eq hkept.symm
          cases answer with
          | ok _ =>
              obtain ⟨_, hsome⟩ := Option.ite_none_right_eq_some.mp hsome
              obtain rfl := Option.some.inj hsome
              unfold Pool.resizeCreated
              dsimp only
              split
              · exact hbound'
              · refine shrink_pledged hkeys hbound' ?_
                intro entry hentry _
                rw [tasks_firstIdle] at hentry
                exact (hmore (hspares entry hentry)).trans_eq hkept.symm
          | error error =>
              obtain ⟨_, hsome⟩ := Option.ite_none_right_eq_some.mp hsome
              obtain rfl := Option.some.inj hsome
              exact hbound'
      | resize rest excess called =>
          have hbound' := hbound.trans_eq hkept.symm
          cases answer with
          | ok _ =>
              obtain rfl := Option.some.inj hsome
              refine shrink_pledged hkeys hbound' ?_
              intro entry hentry hpresent
              rw [tasks_firstIdle] at hentry
              exact (hmore (hspares entry hentry hpresent)).trans_eq hkept.symm
          | error error =>
              obtain ⟨_, hsome⟩ := Option.ite_none_right_eq_some.mp hsome
              obtain rfl := Option.some.inj hsome
              exact hbound'

/-- A lease is released, by a call or by `use`. -/
def IsRelease (x : Transition Pool PoolAction) : Prop :=
  match x.act with
  | .release _ _ _ | .workEnded _ _ _ => True
  | _ => False

theorem Pool.after_length {action : PoolAction} (hstep : PoolStep pool action pool')
    (htidy : pool.shelf.Tidy) (hopen : pool.closed = false)
    (hspares : Spares ⟨pool, action, pool'⟩) (hrelease : IsRelease ⟨pool, action, pool'⟩)
    (hlength : pool.targetSize ≤ pool.entries.length) :
    pool.targetSize ≤ pool'.entries.length := by
  have hkeys : (pool.entries.map pool.address).Nodup := htidy.keys
  cases action with
  | release lease outcome now =>
      obtain rfl := Option.some.inj hstep
      exact release_length outcome now hkeys hopen hspares hlength
  | workEnded lease succeeded now =>
      obtain rfl := Option.some.inj hstep
      exact release_length _ now hkeys hopen hspares hlength
  | lease _ _ _ => exact hrelease.elim
  | resize _ => exact hrelease.elim
  | close => exact hrelease.elim
  | timeout _ => exact hrelease.elim
  | abort _ => exact hrelease.elim
  | created _ _ _ => exact hrelease.elim
  | resumed _ _ => exact hrelease.elim

/-! ## Runs -/

/-- What the adding of an account keeps. -/
theorem Pool.addAll_keeps {P : Pool → Prop}
    (hadd : ∀ pool account now pool', pool.add account now = some pool' → P pool → P pool')
    {accounts : List (ChannelAccount × ℤ)}
    (h : accounts.foldlM (fun pool account => pool.add account.1 account.2) pool = some pool')
    (hP : P pool) : P pool' := by
  induction accounts generalizing pool with
  | nil =>
      obtain rfl := Option.some.inj h
      exact hP
  | cons account accounts ih =>
      rw [List.foldlM_cons] at h
      obtain ⟨next, hnext, hrest⟩ := Option.bind_eq_some_iff.mp h
      exact ih hrest (hadd _ _ _ _ hnext hP)

/-- The constructor leaves a shelf in order. -/
theorem Pool.new_tidy {accounts : List (ChannelAccount × ℤ)}
    {factory : Option ChannelAccountFactory} {minSize maxSize leaseTimeoutMs : Option ℤ}
    (hnew : Pool.new accounts factory minSize maxSize leaseTimeoutMs = some pool) :
    pool.shelf.Tidy := by
  unfold Pool.new at hnew
  dsimp only at hnew
  split_ifs at hnew
  refine addAll_keeps (P := fun pool => pool.shelf.Tidy) ?_ hnew
    ⟨List.nodup_nil, ?_, ?_, List.nodup_nil, ?_⟩
  · intro pool account now pool' hadd htidy
    obtain ⟨hfresh, rfl⟩ := Pool.add_some hadd
    push Not at hfresh
    exact htidy.add now hfresh
  · intro entry hentry
    cases hentry
  · intro entry hentry
    cases hentry
  · intro lease hlease
    cases hlease

/-- What a call of `resize` that is accepted does. -/
theorem Pool.resize_ok {size : ℤ} (h : pool.resize size = (.ok (), pool')) :
    pool.closed = false ∧ 0 ≤ size ∧ ∃ ids started,
      started = (Pool.startCreates { pool with targetSize := size.toNat }
        (size.toNat - (pool.entries.length + pool.creating))).2 ∧
      pool' = { started with tasks := started.tasks ++ [.creations size.toNat ids] } := by
  unfold Pool.resize at h
  by_cases hclosed : pool.closed
  · rw [if_pos hclosed] at h
    cases h
  · rw [if_neg hclosed] at h
    by_cases hrange : size < 0 ∨ size > pool.maxSize
    · rw [if_pos hrange] at h
      cases h
    · rw [if_neg hrange] at h
      by_cases hfactory : size > pool.entries.length + pool.creating ∧ pool.factory = none
      · rw [if_pos hfactory] at h
        cases h
      · rw [if_neg hfactory] at h
        push Not at hrange
        exact ⟨by simpa using hclosed, hrange.1, _, _, rfl, (Prod.mk.inj h).2.symm⟩

theorem Pool.startCreates_frame (n : ℕ) :
    (pool.startCreates n).2.targetSize = pool.targetSize ∧
      (pool.startCreates n).2.closed = pool.closed := by
  induction n generalizing pool with
  | zero => exact ⟨rfl, rfl⟩
  | succ n ih => exact ih

/-- The pool after a call of `resize`, if the creations it counts on can still add entries. -/
theorem Pool.resize_called {size : ℤ} (h : pool.resize size = (.ok (), pool'))
    (hcounts : CountsOnCreations pool size) :
    0 ≤ size ∧ pool'.closed = false ∧ pool'.targetSize = size.toNat ∧
      size.toNat ≤ pool'.pledged ∧
      ∃ ids, pool'.tasks.getLast? = some (.creations size.toNat ids) := by
  obtain ⟨hopen, hnonneg, ids, started, hstarted, rfl⟩ := resize_ok h
  obtain ⟨htarget, hclosed⟩ :
      started.targetSize = size.toNat ∧ started.closed = pool.closed := by
    rw [hstarted]
    exact startCreates_frame _
  refine ⟨hnonneg, hclosed.trans hopen, htarget, ?_, ids, List.getLast?_concat⟩
  rw [start_pledged rfl, hstarted, startCreates_pledged]
  show size.toNat ≤ pool.pledged + _
  have hpledged : pool.pledged = pool.entries.length + pool.creates := rfl
  rcases hcounts with hcreating | hsize
  · omega
  · omega

theorem Pool.run_tidy {tr : List (Transition Pool PoolAction)} (hrun : Run PoolStep pool tr pool')
    (h : pool.shelf.Tidy) : pool'.shelf.Tidy :=
  hrun.invariant (I := fun pool => pool.shelf.Tidy) h
    (fun _ _ _ hm hstep => hm.moves (after_moves hstep))

/-- Without leases all entries are idle. -/
theorem Shelf.Tidy.idle_eq {shelf : Shelf} (h : shelf.Tidy) (hheld : shelf.held = []) :
    shelf.idle [] = shelf.entries.length := by
  refine List.countP_eq_length.mpr (fun entry hentry => ?_)
  cases hleased : (shelf.heap entry).leased with
  | false => rfl
  | true =>
      obtain ⟨lease, hlease⟩ := h.leased_held entry hentry hleased
      rw [hheld] at hlease
      cases hlease

/-- Two accounts, and no factory. -/
def twoAccounts : Option Pool := Pool.new [(accountA, 0), (accountB, 1)] none none none none

theorem Pool.resize_accepts {size : ℤ} (hopen : pool.closed = false) (hnonneg : 0 ≤ size)
    (hmax : size ≤ pool.maxSize) (hsize : size ≤ pool.entries.length + pool.creating) :
    pool.resize size = (.ok (), (pool.resize size).2) := by
  unfold Pool.resize
  rw [if_neg (by simp [hopen]), if_neg (by omega), if_neg (by omega)]

/-- Both accounts are leased when `resize(1)` marks one of them. -/
def markOne : List PoolAction := [
  .lease none false false, .lease none false false,
  .resize 1, .resumed (.creations 1 []) (.ok ())]

/-- `resize(2)` resolves, and both leases are released. -/
def releaseBoth : List PoolAction := [
  .resumed (.creations 2 []) (.ok ()), .release 0 .committed 5, .resumed (.release false) (.ok ()),
  .release 1 .committed 6]

def isQuiet (x : Transition Pool PoolAction) : Bool :=
  !x.post.closed && decide (x.post.targetSize = x.pre.targetSize)

theorem quiet_of_follow {actions : List PoolAction} {tr : List (Transition Pool PoolAction)}
    (hfollow : pool.follow actions = some (tr, pool'))
    (hactions : ∀ action ∈ actions, ∀ size, action ≠ .resize size)
    (hquiet : ∀ x ∈ tr, isQuiet x = true) : ∀ x ∈ tr, Quiet x := by
  induction actions generalizing pool tr with
  | nil =>
      obtain ⟨rfl, _⟩ := Prod.mk.inj (Option.some.inj hfollow)
      intro x hx
      cases hx
  | cons action actions ih =>
      rw [Pool.follow] at hfollow
      obtain ⟨next, _, hrest⟩ := Option.bind_eq_some_iff.mp hfollow
      obtain ⟨⟨rest, last⟩, hlater, hsome⟩ := Option.bind_eq_some_iff.mp hrest
      obtain ⟨rfl, rfl⟩ := Prod.mk.inj (Option.some.inj hsome)
      rw [List.forall_mem_cons] at hactions hquiet ⊢
      refine ⟨?_, ih hlater hactions.2 hquiet.2⟩
      obtain ⟨hopen, htarget⟩ := Bool.and_eq_true_iff.mp hquiet.1
      exact ⟨hactions.1, by simpa using hopen, of_decide_eq_true htarget⟩

theorem releaseBoth_values :
    (twoAccounts.bind fun pool => (pool.follow markOne).bind fun result =>
      ((result.2.resize 2).2.follow releaseBoth).map fun result' =>
        decide ((result.2.closed = false ∧ result.2.maxSize = 2 ∧ result.2.entries.length = 2 ∧
            result.2.creating = result.2.creates) ∧
          (result.2.resize 2).2.tasks = [.creations 2 []] ∧
          (∀ x ∈ result'.1.head?, x.pre.tasks = [.creations 2 []] ∧ x.post.tasks = []) ∧
          (∀ x ∈ result'.1, isQuiet x = true) ∧
          result'.2.held = [] ∧ result'.2.creates = 0 ∧ result'.2.entries.length = 1)) =
      some true := by
  decide +kernel

end StellarAgent.Fleet
