import Mathlib.Data.Multiset.AddSub
import CodeOutline.Proofs.SessionRuns

/-!
# Proofs.Refresh — no refresh is lost

A host runs a session and the waits it is asked for. A wait that was asked for stands in `timers` until
it comes due (`Step.due`) or the host drops it; it may drop only a wait whose revision is not the
document's (`Step.drop`). Between these come messages of every other sort, in any order.

The waits say nothing about which document they were asked for, and revisions start again after the last
one, so a wait may come due for a document it was never meant for. That does no harm: a refresh too many
makes the outline that is called for anyway. What counts is that one wait for the present revision is
there as long as the outline is behind (`Served`). `Step.served` is the step and
`Host.Reachable.no_refresh_lost` the run.
-/

namespace CodeOutline

set_option autoImplicit false

def Session.revision? (s : Session) : Option UInt64 := s.document.map (·.revision)

/-- A session and the revisions whose waits are not over. -/
structure Host where
  session : Session
  timers : Multiset UInt64

namespace Host

def arm (timers : Multiset UInt64) : Option Command → Multiset UInt64
  | some (.debounce revision _) => revision ::ₘ timers
  | _ => timers

def send (h : Host) (m : Message) : Host :=
  ⟨(h.session.update m).1, arm h.timers (h.session.update m).2⟩

def fire (h : Host) (revision : UInt64) : Host :=
  ⟨(h.session.update (.refreshDue revision)).1, h.timers.erase revision⟩

def forget (h : Host) (revision : UInt64) : Host :=
  { h with timers := h.timers.erase revision }

inductive Step : Host → Host → Prop where
  | send (h : Host) (m : Message) (other : ∀ revision, m ≠ .refreshDue revision) : Step h (h.send m)
  | due (h : Host) (revision : UInt64) (pending : revision ∈ h.timers) : Step h (h.fire revision)
  | drop (h : Host) (revision : UInt64) (pending : revision ∈ h.timers)
      (stale : h.session.revision? ≠ some revision) : Step h (h.forget revision)

inductive Reachable : Host → Prop where
  | new (config : Config) : Reachable ⟨.new config, 0⟩
  | withDocument (config : Config) (d : Document) : Reachable ⟨.withDocument config d, 0⟩
  | step {h h' : Host} (before : Reachable h) (next : Step h h') : Reachable h'

/-- A wait for the document's present revision is still to come due. -/
def Awaited (h : Host) : Prop :=
  ∃ revision, h.session.revision? = some revision ∧ revision ∈ h.timers

structure Served (h : Host) : Prop where
  synced : h.session.Synced
  fresh_or_awaited : h.session.Fresh ∨ h.Awaited

/-! ## One step -/

/-- A wait that is taken away was not for the present revision, so the one that counts stays. -/
theorem Awaited.forget {h : Host} (awaited : h.Awaited) {revision : UInt64}
    (stale : h.session.revision? ≠ some revision) : (h.forget revision).Awaited := by
  obtain ⟨current, present, pending⟩ := awaited
  have different : current ≠ revision := by
    rintro rfl
    exact stale present
  exact ⟨current, present, (Multiset.mem_erase_of_ne different).2 pending⟩

theorem Served.turn {h : Host} (served : h.Served) {r : Session × Option Command}
    (turn : Session.Turn h.session r) : Served ⟨r.1, arm h.timers r.2⟩ := by
  refine ⟨turn.synced served.synced, ?_⟩
  cases turn with
  | refreshed t synced => exact .inl (synced served.synced).fresh_rebuild
  | delayed d active e => exact .inr ⟨(d.edit e).revision, rfl, Multiset.mem_cons_self _ _⟩
  | idle | redrawn | revealed | missed => exact served.fresh_or_awaited

/-- A wait that comes due for the present revision makes the outline again; any other does nothing. -/
theorem update_refreshDue (s : Session) (revision : UInt64) :
    s.update (.refreshDue revision) =
      if s.revision? = some revision then s.refreshed else (s, none) := by
  simp only [Session.update]
  split
  · rename_i absent
    simp [Session.revision?, absent]
  · rename_i d active
    simp [Session.revision?, active]

theorem Served.fire {h : Host} (served : h.Served) (revision : UInt64) : (h.fire revision).Served := by
  refine ⟨(h.session.update_turn _).synced served.synced, ?_⟩
  by_cases present : h.session.revision? = some revision
  · left
    simp only [Host.fire, update_refreshDue, present, if_true]
    exact served.synced.fresh_rebuild
  · simp only [Host.fire, update_refreshDue, present, if_false]
    exact served.fresh_or_awaited.imp_right fun awaited => awaited.forget present

theorem Served.forget {h : Host} (served : h.Served) {revision : UInt64}
    (stale : h.session.revision? ≠ some revision) : (h.forget revision).Served :=
  ⟨served.synced, served.fresh_or_awaited.imp_right fun awaited => awaited.forget stale⟩

theorem Step.served {h h' : Host} (next : Step h h') (served : h.Served) : h'.Served := by
  cases next with
  | send m => exact served.turn (h.session.update_turn m)
  | due revision => exact served.fire revision
  | drop revision _ stale => exact served.forget stale

/-! ## Every run -/

theorem Reachable.served {h : Host} (reach : h.Reachable) : h.Served := by
  induction reach with
  | new config => exact ⟨Session.synced_new config, .inl rfl⟩
  | withDocument config d =>
      exact ⟨Session.synced_withDocument config d, .inl (Session.Synced.fresh_rebuild ⟨rfl, rfl⟩)⟩
  | step _ next ih => exact next.served ih

/-- **No refresh is lost.** Whatever happened, the outline is the one that is called for, or a wait for
the present revision is pending; so once no wait is pending the outline is the one called for. -/
theorem Reachable.no_refresh_lost {h : Host} (reach : h.Reachable) :
    (h.session.Fresh ∨ h.Awaited) ∧ (h.timers = 0 → h.session.Fresh) := by
  have served := reach.served.fresh_or_awaited
  refine ⟨served, fun drained => served.resolve_right ?_⟩
  rintro ⟨revision, -, pending⟩
  rw [drained] at pending
  exact Multiset.notMem_zero revision pending

/-- The second half cannot be left out: right after an edit that has to wait, the outline is behind
and the wait for the revision just reached is pending. -/
theorem no_refresh_lost_behind :
    let h := Host.send ⟨.withDocument {} { text := "class A \x7b" }, 0⟩ (.edit (.insert 9 "\x7d"))
    h.Reachable ∧ ¬ h.session.Fresh ∧ h.timers = {1} ∧
      (h.session.Fresh ∨ h.Awaited) ∧ (h.timers = 0 → h.session.Fresh) := by
  intro h
  have reach : h.Reachable :=
    .step (.withDocument {} { text := "class A \x7b" }) (.send _ (.edit (.insert 9 "\x7d")) nofun)
  have behind : ¬ h.session.Fresh := fun fresh =>
    absurd (congrArg Outline.revision fresh) (by decide)
  exact ⟨reach, behind, rfl, reach.no_refresh_lost⟩

end Host

end CodeOutline
