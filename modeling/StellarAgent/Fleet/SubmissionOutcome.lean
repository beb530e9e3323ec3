import StellarAgent.Fleet.QueueDiscipline

set_option autoImplicit false

/-! # The outcome of a fulfilled execution

An execution of a task that is fulfilled settles the promise of the task with its value, and is the
last one, as long as neither the metrics sink nor the clock throws right after it (and the other
calls of the caller's code return). Where one of them throws, the fulfilled execution is handled as
a failed one (`fulfilled_twice`).
-/

namespace StellarAgent.Fleet.Submission

open Lib

variable {V E : Type}

namespace SubmissionQueue

variable {queue queue' : SubmissionQueue V E}

/-! ## The invariant -/

/-- Who is told of a fulfilled execution, and what follows it. -/
structure Honest (queue : SubmissionQueue V E) : Prop where
  told : ∀ id value, .fulfilled id value ∈ queue.log → .settled id (.ok value) ∈ queue.log
  last : queue.log.Pairwise fun event later =>
    ∀ id value attempt, event = .fulfilled id value → later ≠ .started id attempt

/-- A task that waits or is under way was not settled. -/
theorem Book.not_settled (h : queue.Book) {id : ℕ} (hopen : 0 < queue.unsettled id)
    (result : Except (Rejection E) V) : .settled id result ∉ queue.log := by
  intro hsettled
  have haccounted := h.accounted id
  have hpos : 0 < queue.settlements id :=
    List.countP_pos_iff.mpr ⟨_, hsettled, by simp [isSettled]⟩
  split at haccounted
  · omega
  · omega

theorem unsettled_of_pending {item : QueueItem} (hitem : item ∈ queue.pending) :
    0 < queue.unsettled item.id := by
  have hwaits : 0 < waitingIn queue.pending item.id :=
    List.countP_pos_iff.mpr ⟨item, hitem, by simp⟩
  unfold unsettled
  omega

theorem unsettled_of_run {run : Activation} (hrun : run ∈ queue.runs) (hphase : run.phase ≠ .ended) :
    0 < queue.unsettled run.item.id := by
  have hunderway : 0 < underWayIn queue.runs run.item.id :=
    List.countP_pos_iff.mpr ⟨run, hrun, by simp [hphase]⟩
  unfold unsettled
  omega

namespace Honest

variable (h : queue.Honest)

include h

/-- No execution of a task that waits or is under way was fulfilled. -/
theorem not_fulfilled (hbook : queue.Book) {id : ℕ} (hopen : 0 < queue.unsettled id) (value : V) :
    .fulfilled id value ∉ queue.log :=
  fun hmem => hbook.not_settled hopen _ (h.told id value hmem)

theorem extend (events : List (Event V E)) (hlog : queue'.log = queue.log ++ events)
    (htold : ∀ id value, .fulfilled id value ∈ events → .settled id (.ok value) ∈ events)
    (hstarted : ∀ id attempt, .started id attempt ∈ events →
      events = [.started id attempt] ∧ ∀ value, .fulfilled id value ∉ queue.log) :
    queue'.Honest := by
  refine ⟨?_, ?_⟩
  · intro id value hmem
    rw [hlog, List.mem_append] at hmem ⊢
    exact hmem.imp (h.told id value) (htold id value)
  · rw [hlog, List.pairwise_append]
    refine ⟨h.last, ?_, ?_⟩
    · refine List.pairwise_of_forall_mem_list (fun event hevent later hlater => ?_)
      intro id value attempt hfulfilled
      rintro rfl
      obtain ⟨rfl, _⟩ := hstarted id attempt hlater
      rw [hfulfilled] at hevent
      cases List.mem_singleton.mp hevent
    · intro event hevent later hlater id value attempt hfulfilled
      rintro rfl
      rw [hfulfilled] at hevent
      exact (hstarted id attempt hlater).2 value hevent

omit h in
/-- **Every strict move keeps it.** -/
theorem move (hmove : Move true queue queue') (hbook : queue.Book) (h : queue.Honest) :
    queue'.Honest := by
  cases hmove with
  | accept => exact h.extend _ rfl (by simp) (by simp)
  | @start item hfind hslot =>
      refine h.extend [.started item.id 1] rfl (by simp) ?_
      intro id attempt hmem
      obtain ⟨rfl, rfl⟩ := Event.started.inj (List.mem_singleton.mp hmem)
      have hopen := unsettled_of_pending (List.mem_of_find?_eq_some hfind)
      exact ⟨rfl, h.not_fulfilled hbook hopen⟩
  | cancel _ => exact h.extend _ rfl (by simp) (by simp)
  | fulfil hstrict _ _ => cases hstrict
  | @succeed run value _ _ =>
      exact h.extend [.fulfilled run.item.id value, .settled run.item.id (.ok value)]
        (List.append_assoc _ _ _) (by simp) (by simp)
  | finish _ _ => exact h.extend _ rfl (by simp) (by simp)
  | sleep _ _ _ => exact ⟨h.told, h.last⟩
  | @wake run hrun hphase =>
      refine h.extend [.started run.item.id (run.attempt + 1)] rfl (by simp) ?_
      intro id attempt hmem
      obtain ⟨rfl, rfl⟩ := Event.started.inj (List.mem_singleton.mp hmem)
      have hawake : run.phase ≠ .ended := by
        rw [hphase]
        decide
      exact ⟨rfl, h.not_fulfilled hbook (unsettled_of_run hrun hawake)⟩
  | remove _ _ => exact ⟨h.told, h.last⟩

theorem told_drains (htold : Told queue queue') : queue'.Honest := by
  cases htold with
  | nobody => exact h
  | @told _ _ calls _ _ => exact h.extend (calls.map .drained) rfl (by simp) (by simp)

end Honest

theorem Kept.honest_moves (hkept : queue.Kept) (h : queue.Honest) (hmoves : Moves true queue queue') :
    queue'.Honest := by
  have hboth : queue'.Kept ∧ queue'.Honest :=
    hmoves.keeps (P := fun queue => queue.Kept ∧ queue.Honest)
      (fun _ _ hmove hbefore => ⟨hbefore.1.moves (.single hmove),
        hbefore.2.move hmove hbefore.1.book⟩) ⟨hkept, h⟩
  exact hboth.2

end SubmissionQueue

/-! ## Runs -/

open SubmissionQueue

/-- **The condition on an action**: the metrics sink and the classifier do not throw, the clock does
not after a fulfilled execution, and a sleep is not rejected. -/
def Sober (action : QueueAction V E) : Prop := Calm action ∧ ¬ Disturbed action

/-- **A success is final** in every run whose actions meet the condition: the promise of its task is resolved with its value, once, and the task
is not executed again; and every other accepted task is settled too. -/
theorem success_is_final {options : SubmissionQueueOptions} {queue : SubmissionQueue V E}
    {tr : List (Transition (SubmissionQueue V E) (QueueAction V E))}
    (hrun : Run QueueStep (SubmissionQueue.new options) tr queue) (hsober : ∀ x ∈ tr, Sober x.act) :
    (∀ earlier id value later, queue.log = earlier ++ .fulfilled id value :: later →
      .settled id (.ok value) ∈ queue.log ∧ queue.settlements id = 1 ∧
        ∀ attempt, .started id attempt ∉ later) ∧
    Disciplined options tr queue := by
  have hcalm : ∀ x ∈ tr, Calm x.act := fun x hx => (hsober x hx).1
  obtain ⟨⟨hoptions, hkept, hidle⟩, hwork, hdrains⟩ := calm_run hrun hcalm
  refine ⟨?_, disciplined_of_kept hoptions hkept hidle hwork hdrains⟩
  obtain ⟨⟨_, _, hhonest⟩, _⟩ := hrun.safety (Q := fun _ => True)
    (I := fun queue => queue.Kept ∧ queue.Idle ∧ queue.Honest) hsober
    ⟨new_kept options, new_idle options, ⟨by simp [SubmissionQueue.new], List.Pairwise.nil⟩⟩ (by
      rintro before action next ⟨hbefore, hresting, hhonest⟩ hstep ⟨hquiet, hundisturbed⟩
      have hdoes : Does true (steps action) before next :=
        does_after hresting hbefore.book hstep hquiet (fun hdisturbed => absurd hdisturbed hundisturbed)
      obtain ⟨middle, hmoves, htold, hresting', _⟩ := hdoes
      exact ⟨⟨(hbefore.moves hmoves).told htold, hresting',
        (hbefore.honest_moves hhonest hmoves).told_drains htold⟩, trivial⟩)
  intro earlier id value later hlog
  have hfulfilled : .fulfilled id value ∈ queue.log := by
    rw [hlog]
    exact List.mem_append_right _ List.mem_cons_self
  have hsettled := hhonest.told id value hfulfilled
  refine ⟨hsettled, ?_, ?_⟩
  · have haccounted := hkept.book.accounted id
    have hpos : 0 < queue.settlements id :=
      List.countP_pos_iff.mpr ⟨_, hsettled, by simp [isSettled]⟩
    split at haccounted
    · omega
    · omega
  · intro attempt hstarted
    have hlast := hhonest.last
    rw [hlog, List.pairwise_append, List.pairwise_cons] at hlast
    exact hlast.2.1.1 _ hstarted id value attempt rfl rfl

/-- A fulfilled task, and one that is rejected -/
theorem success_is_final_two : ∃ tr, ∃ queue : SubmissionQueue ℕ String,
    Run QueueStep (SubmissionQueue.new sampleOptions) tr queue ∧
      queue.log = [.accepted ⟨0, none, false⟩, .started 0 1, .accepted ⟨1, none, false⟩,
        .started 1 1, .fulfilled 0 7, .settled 0 (.ok 7),
        .settled 1 (.error (.thrown "unknown"))] ∧
      queue.settlements 0 = 1 := by
  let actions : List (QueueAction ℕ String) := [
    .submit none false false none [], .submit none false false none [],
    .executed ⟨⟨0, none, false⟩, 1, .executing⟩ (.ok 7) none (answering .permanent),
    .executed ⟨⟨1, none, false⟩, 1, .executing⟩ (.error "unknown") none (answering .permanent)]
  have hvalues : (walk after (SubmissionQueue.new sampleOptions) actions).map (fun result =>
      decide (result.2.log = [.accepted ⟨0, none, false⟩, .started 0 1,
        .accepted ⟨1, none, false⟩, .started 1 1, .fulfilled 0 7, .settled 0 (.ok 7),
        .settled 1 (.error (.thrown "unknown"))])) = some true := by decide +kernel
  obtain ⟨⟨tr, queue⟩, hwalk, hdecided⟩ := Option.map_eq_some_iff.mp hvalues
  have hlog := of_decide_eq_true hdecided
  have hrun : Run QueueStep (SubmissionQueue.new sampleOptions) tr queue := walk_run hwalk
  have hsober : ∀ x ∈ tr, Sober x.act := by
    have hall : ∀ action ∈ actions, Sober action := by
      simp [actions, Sober, Calm, Disturbed, Returns, answering]
    intro x hx
    refine hall x.act ?_
    rw [← walk_acts hwalk]
    exact List.mem_map_of_mem hx
  exact ⟨tr, queue, hrun, hlog,
    ((success_is_final hrun hsober).1 [.accepted ⟨0, none, false⟩, .started 0 1,
      .accepted ⟨1, none, false⟩, .started 1 1] 0 7 _ hlog).2.1⟩

/-- The message of an error that the histogram throws. -/
def metricsTimeout : String := "metrics timeout"

/-- **A fulfilled task is executed again, and then rejected**: after each of its executions the
metrics sink throws, and the classifier of the queue takes that for an error of the network. -/
theorem fulfilled_twice : ∃ tr, ∃ queue : SubmissionQueue ℕ String,
    Run QueueStep (SubmissionQueue.new sampleOptions) tr queue ∧
      queue.log = [.accepted ⟨0, none, false⟩, .started 0 1, .fulfilled 0 7, .started 0 2,
        .fulfilled 0 7, .settled 0 (.error (.thrown metricsTimeout))] := by
  let handling : Handling String := answering (classifySubmissionError "" metricsTimeout)
  let item : QueueItem := ⟨0, none, false⟩
  have hvalues : (walk after (SubmissionQueue.new sampleOptions) [
      .submit none false false none [],
      .executed ⟨item, 1, .executing⟩ (.ok 7) (some metricsTimeout) handling,
      .woke ⟨item, 1, .sleeping⟩ (.ok ()),
      .executed ⟨item, 2, .executing⟩ (.ok 7) (some metricsTimeout) handling]).map (fun result =>
      decide (result.2.log = [.accepted item, .started 0 1, .fulfilled 0 7, .started 0 2,
        .fulfilled 0 7, .settled 0 (.error (.thrown metricsTimeout))])) = some true := by
    decide +kernel
  obtain ⟨⟨tr, queue⟩, hwalk, hdecided⟩ := Option.map_eq_some_iff.mp hvalues
  exact ⟨tr, queue, walk_run hwalk, of_decide_eq_true hdecided⟩

end StellarAgent.Fleet.Submission
