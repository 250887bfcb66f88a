import Enbox.Proof.EventLog.Replay

/-! # A drain keeps to its history -/

namespace Enbox.Proof.EventLog

open Lib Proof.Store Subscription

variable {Feed : Type} {entryAt : Feed → Did → Nat → Option EventLogEntry} {sub : Subscription}
  {history : History Feed} {drain : DrainTask}

theorem past_of_drain (isDrain : sub.drain = some drain) : ¬ Waiting sub :=
  fun waiting => nomatch waiting.2.symm.trans isDrain

section

variable (fits : Fits entryAt sub history) (isDrain : sub.drain = some drain)

include fits isDrain

theorem live_of_drain (open_ : ¬ sub.isClosed = true) : sub.phase = .live := by
  cases isPhase : sub.phase with
  | live => rfl
  | replay => exact absurd isPhase (fits.drain drain isDrain).2.1
  | closed => exact absurd (decide_eq_true isPhase) open_

omit fits isDrain in
theorem Settled.of_closed (isClosed : sub.isClosed = true) : Settled sub history := fun isLive =>
  nomatch isLive.symm.trans (of_decide_eq_true isClosed)

theorem Fits.tell (more : List SubscriptionMessage) (once : NoEose more) {history' : History Feed}
    (exact : history'.course.Exact (Shown entryAt sub))
    (start : history'.course.start = history.course.start)
    (handed : history'.course.handed = history.course.handed ++ positions more)
    (beyond : ∀ position ∈ positions more, history.course.reached < position)
    (further : history.course.reached ≤ history'.course.reached) {cursor : Option ProgressToken}
    {redrainRequested terminalErrorSent : Bool} {next : DrainTask}
    (stands : DrainFits entryAt { sub with cursor, heard := sub.heard ++ more } history' next) :
    Fits entryAt
      { sub with
        cursor, redrainRequested, terminalErrorSent, heard := sub.heard ++ more, drain := some next }
      history' := by
  obtain ⟨draining, notReplay, ended, -⟩ := fits.drain drain isDrain
  exact
    { exact := exact
      heard := by
        rw [handed, ← fits.heard]
        exact positions_append _ _
      resumes := fun token given => start.trans (fits.resumes token given)
      task := fits.task.of_live (past_of_drain isDrain)
      marks := fits.marks.imp (·.append once) fun ⟨resumes, ended⟩ =>
        ⟨resumes, ended.grow once beyond further⟩
      live := fun isLive resumes => (fits.live isLive resumes).grow once beyond further
      idle := fun absent => by cases absent
      drain := fun _ isNext => by
        cases isNext
        exact ⟨draining, notReplay, fun resumes => (ended resumes).grow once beyond further, stands⟩ }

theorem Fits.moves {history' : History Feed} (exact : history'.course.Exact (Shown entryAt sub))
    (start : history'.course.start = history.course.start)
    (handed : history'.course.handed = history.course.handed)
    (further : history.course.reached ≤ history'.course.reached) {cursor : Option ProgressToken}
    {redrainRequested terminalErrorSent : Bool} {next : DrainTask}
    (stands : DrainFits entryAt { sub with cursor } history' next) :
    Fits entryAt
      { sub with cursor, redrainRequested, terminalErrorSent, drain := some next } history' := by
  rw [← List.append_nil sub.heard] at stands ⊢
  exact fits.tell isDrain [] (fun _ => List.not_mem_nil) exact start
    (handed.trans (List.append_nil _).symm) (fun _ listed => absurd listed List.not_mem_nil) further
    stands

theorem Fits.redrain {snapshot : Option Feed} {next : DrainTask}
    (stands : DrainFits entryAt sub { history with snapshot } next) :
    Fits entryAt { sub with drain := some next } { history with snapshot } := by
  have exact : ({ history with snapshot } : History Feed).course.Exact (Shown entryAt sub) :=
    fits.exact
  exact fits.moves isDrain exact rfl rfl le_rfl stands

omit fits isDrain in
theorem drainFailed_fits (settled : Settled sub history) (error : EventLogError) :
    DrainFits entryAt sub history (drainFailed error) := by
  cases error with
  | progressGap info => trivial
  | _ => exact settled

theorem Fits.ends (settled : Settled sub history) :
    Fits entryAt { sub with draining := false, drain := none } history :=
  { fits with
    task := fits.task.of_live (past_of_drain isDrain)
    idle := fun _ => ⟨rfl, settled⟩
    drain := fun _ isNext => nomatch isNext }

end

section

variable {reader : FeedReader Feed} (contract : PagingContract reader entryAt) {readLimit : Nat}
  {feed : Feed} {outside : Outside}

include contract in
theorem Fits.drainDelivery (fits : Fits entryAt sub history) {page : DrainPage}
    {entry : EventLogEntry} {stage : DeliveryStage}
    (isDrain : sub.drain = some (.delivering page entry stage)) :
    Fits entryAt (sub.drainStep reader readLimit feed outside (.delivering page entry stage))
      (history.afterDelivery entry stage) := by
  obtain ⟨settled, last, parsed, ahead⟩ := (fits.drain _ isDrain).2.2.2
  simp only [drainStep]
  rcases delivery_cases history sub.isClosed outside entry page.scan stage with
    ⟨initialWrite, rfl⟩ | ⟨same, silent, closed⟩
  · have passed : HandedOver entryAt sub history
        (history.afterDelivery entry (.listening initialWrite)) _ _ _ :=
      ahead.hand contract fits.exact
    refine fits.tell isDrain _ (.event _ _) passed.exact passed.start passed.handed
      (fun position listed => ?_) (passed.reached ▸ passed.beyond.le)
      fun _ => ⟨passed.reached.symm, last, parsed, passed.ahead⟩
    rw [List.mem_singleton.mp listed]
    exact passed.beyond
  · rw [same]
    split
    · exact fits.redrain isDrain (drainFailed_fits settled _)
    · exact fits.redrain isDrain ⟨settled, last, parsed, ahead⟩
    · rename_i returns
      rw [silent, List.append_nil]
      refine fits.redrain isDrain fun isLive => ?_
      cases isLive.symm.trans (of_decide_eq_true (closed _ returns))

include contract in
theorem Fits.drainStep (fits : Fits entryAt sub history) (isDrain : sub.drain = some drain) :
    Fits entryAt (sub.drainStep reader readLimit feed outside drain)
      (history.afterDrain feed sub) := by
  have stands := (fits.drain drain isDrain).2.2.2
  rw [History.afterDrain, isDrain]
  cases drain with
  | delivering page entry stage => exact fits.drainDelivery contract isDrain
  | checking cursor =>
    simp only [drainStep]
    split
    · exact fits.redrain isDrain stands.1
    · exact fits.redrain isDrain stands
  | reading cursor =>
    simp only [drainStep]
    split
    · have settled : Settled sub { history with snapshot := some feed } := stands.1
      exact fits.redrain isDrain (drainFailed_fits settled _)
    · rename_i page isPage
      simp only [ok_iff] at isPage
      obtain ⟨result, read, scan, isScan, rfl⟩ := isPage
      obtain ⟨_, same, ahead⟩ := ahead_of_read contract (by simp) rfl stands.2 read
      cases isScan.symm.trans same
      exact fits.redrain isDrain ⟨stands.1, ahead⟩
  | entries page =>
    simp only [drainStep]
    split
    · rename_i isRest
      refine fits.redrain isDrain ?_
      have ahead := stands.2
      rwa [isRest] at ahead
    · rename_i entry rest isRest
      have ahead := stands.2
      rw [isRest] at ahead
      split
      · exact fits.redrain isDrain stands.1
      · exact fits.redrain isDrain ⟨stands.1, ahead⟩
  | storing page cursor =>
    simp only [drainStep]
    split
    · rename_i isClosed
      exact fits.redrain isDrain (.of_closed isClosed)
    · rename_i notClosed
      obtain ⟨here, ahead⟩ := stands (live_of_drain fits isDrain notClosed)
      exact fits.moves isDrain fits.exact rfl rfl le_rfl ⟨fun _ => here, ahead⟩
  | turning page =>
    simp only [drainStep]
    obtain ⟨last, parsed, ahead⟩ := stands
    split
    · rename_i isClosed
      exact fits.redrain isDrain (.of_closed isClosed)
    · obtain ⟨-, -, below, -⟩ := ahead.nothing
      rw [cursorPosition_of_parse parsed]
      obtain ⟨exact, reached, start, handed⟩ := ahead.pass fits.exact
      have here : cursorPosition (some page.scan) = (history.pass last).course.reached := by
        rw [cursorPosition_of_parse parsed, reached]
      refine fits.moves isDrain exact start handed (below.trans reached.ge) ?_
      split
      · exact fun _ => here
      · exact ⟨fun _ => here, here⟩
  | settling =>
    simp only [drainStep]
    split
    · rename_i again
      simp only [Bool.and_eq_true, decide_eq_true_eq] at again
      exact fits.moves isDrain fits.exact rfl rfl le_rfl ⟨stands, stands again.1⟩
    · exact fits.ends isDrain stands
  | gap info =>
    simp only [drainStep]
    split
    · exact fits.redrain isDrain trivial
    · exact fits.moves isDrain fits.exact rfl rfl le_rfl trivial
  | gapSending info =>
    simp only [drainStep]
    refine fits.tell isDrain _ (fun _ listed => ?_) fits.exact rfl (List.append_nil _).symm
      (fun _ listed => by cases listed) le_rfl trivial
    cases List.mem_singleton.mp listed
  | gapClosing =>
    exact fits.cleanup.redrain isDrain rfl
  | gapUnregistering =>
    exact fits.redrain isDrain stands
  | gapEnding =>
    exact fits.ends isDrain (.of_closed (decide_eq_true stands))

end

end Enbox.Proof.EventLog
