import Mathlib.Algebra.Group.Nat.Defs
import CodeOutline.Proofs.Commands

/-!
# Proofs.RevisionTag — the revision of an outline tells whether it is up to date

An outline carries the revision that its document had when the outline was made. Activated documents bring
any revision along, revisions start again after the last, and an edit changes the text and leaves the
outline as it is. What holds all the same is a relation to the number of edits since the outline was last
made (`Counted` runs keep count): the document's revision is the outline's, so many steps on, in 64-bit
words (`Lag`). A number of edits below `2 ^ 64` comes back to the same word only if it is zero, and with no
edit since the outline was made it is the one that document and settings call for.
-/

namespace CodeOutline

set_option autoImplicit false

namespace Session

/-- The number of edits that the document has taken since the outline was last made, after one more
message. An edit counts if there is a document to take it. -/
def editsAfter (s : Session) (m : Message) (edits : Nat) : Nat :=
  if (Command.ofOption (s.update m).2).refreshesOutline then 0
  else
    match m, s.document with
    | .edit _, some _ => edits + 1
    | _, _ => edits

/-- The sessions that messages lead to, with the number of edits since the outline was last made. -/
inductive Counted : Session → Nat → Prop where
  | new (config : Config) : Counted (new config) 0
  | withDocument (config : Config) (d : Document) : Counted (withDocument config d) 0
  | update {s : Session} {edits : Nat} (before : Counted s edits) (m : Message) :
      Counted (s.update m).1 (s.editsAfter m edits)

theorem Counted.reachable {s : Session} {edits : Nat} (run : Counted s edits) : s.Reachable := by
  induction run with
  | new config => exact .new config
  | withDocument config d => exact .withDocument config d
  | update _ m ih => exact ih.update m

/-- The outline is as many edits behind as were counted: it is up to date if there were none, and the
revision of the document is as many steps on. -/
structure Lag (s : Session) (edits : Nat) : Prop where
  fresh : edits = 0 → s.Fresh
  behind : ∀ d, s.document = some d → d.revision = s.outline.revision + UInt64.ofNat edits

theorem Fresh.lag {s : Session} (fresh : s.Fresh) : s.Lag 0 := by
  refine ⟨fun _ => fresh, fun d active => ?_⟩
  have made : s.outline = outlineOf d s.config d.revision := by
    rw [fresh, calledFor, active]
  have tag : s.outline.revision = d.revision := congrArg Outline.revision made
  rw [tag]
  exact (UInt64.add_zero _).symm

/-! ## One message -/

section Step

variable {s : Session} {edits : Nat} {m : Message}

theorem lag_refreshed {t : Session} (eq : s.update m = t.refreshed) (synced : t.Synced) :
    (s.update m).1.Lag (s.editsAfter m edits) := by
  have none_since : s.editsAfter m edits = 0 := by
    simp [editsAfter, eq, refreshed, Command.ofOption, Command.refreshesOutline]
  rw [none_since, eq]
  exact synced.fresh_rebuild.lag

/-- One more edit is one more step of the revision, and one more edit behind. -/
theorem Lag.edit {d : Document} (lag : s.Lag edits) (active : s.document = some d) (e : Edit) :
    Lag { s with document := some (d.edit e) } (edits + 1) := by
  refine ⟨fun none_since => absurd none_since (Nat.succ_ne_zero edits), ?_⟩
  rintro _ ⟨rfl⟩
  calc (d.edit e).revision
      = d.revision + 1 := rfl
    _ = s.outline.revision + UInt64.ofNat edits + 1 := by rw [lag.behind d active]
    _ = s.outline.revision + UInt64.ofNat (edits + 1) := by rw [UInt64.ofNat_add, UInt64.add_assoc]; rfl

theorem Lag.untouched {r : Session × Option Command} (lag : s.Lag edits) (untouched : s.Untouched r) :
    r.1.Lag edits := by
  constructor
  · intro none_since
    have before : s.outline = s.calledFor := lag.fresh none_since
    rw [Fresh, calledFor, untouched.outline, untouched.document, untouched.config]
    exact before
  · rw [untouched.document, untouched.outline]
    exact lag.behind

theorem Lag.update (lag : s.Lag edits) (synced : s.Synced) (m : Message) :
    (s.update m).1.Lag (s.editsAfter m edits) := by
  cases s.update_course m with
  | activated d sort =>
      subst sort
      exact lag_refreshed (t := { s with document := d, caret := none, panel := s.panel.reset }) rfl
        ⟨synced.builder, synced.collapse⟩
  | rebuilt rebuilds =>
      obtain ⟨t, eq, -, keeps⟩ := rebuilds.update_eq
      exact lag_refreshed eq (keeps synced)
  | delayed e d sort active eq =>
      subst sort
      have one_more : s.editsAfter (.edit e) edits = edits + 1 := by
        simp [editsAfter, eq, active, Command.ofOption, Command.refreshesOutline]
      rw [one_more, eq]
      exact lag.edit active e
  | untouched no_edit untouched =>
      have same : s.editsAfter m edits = edits := by
        simp only [editsAfter, untouched.answer]
        split
        · rename_i impossible
          cases impossible
        · split
          · rename_i e d active
            rw [no_edit e rfl] at active
            cases active
          · rfl
      rw [same]
      exact lag.untouched untouched

end Step

/-! ## Every run -/

theorem Counted.lag {s : Session} {edits : Nat} (run : Counted s edits) : s.Lag edits := by
  induction run with
  | new config => exact Fresh.lag rfl
  | withDocument config d => exact (Synced.fresh_rebuild ⟨rfl, rfl⟩).lag
  | update before m ih => exact ih.update before.reachable.synced m

/-- Fewer edits than there are revisions lead back to the same revision only if there are none. -/
theorem Lag.edits_eq_zero {s : Session} {edits : Nat} (lag : s.Lag edits) (few : edits < 2 ^ 64)
    {d : Document} (active : s.document = some d) (same : s.outline.revision = d.revision) : edits = 0 := by
  have steps := lag.behind d active
  rw [same] at steps
  have words := congrArg UInt64.toNat steps
  rw [UInt64.toNat_add, UInt64.toNat_ofNat_of_lt' few] at words
  have bound := d.revision.toNat_lt
  omega

/-- **The revision of an outline tells the truth.** As long as the document has taken fewer than `2 ^ 64` edits
since the outline was last made, an outline with the document's revision is the outline of that document under
the present settings. Without a document the outline is empty. -/
theorem Counted.revision_tells {s : Session} {edits : Nat} (run : Counted s edits) (few : edits < 2 ^ 64) :
    (∀ d, s.document = some d → s.outline.revision = d.revision →
        s.outline = outlineOf d s.config d.revision) ∧
      (s.document = none → s.outline = .empty 0) := by
  refine ⟨?_, run.reachable.bare⟩
  intro d active same
  have none_since : edits = 0 := run.lag.edits_eq_zero few active same
  have fresh : s.outline = s.calledFor := run.lag.fresh none_since
  rw [fresh, calledFor, active]

/-- A document that was activated at the last revision takes an edit and is at revision 0. Its outline is
behind until the refresh is carried out, and then has revision 0 too. -/
theorem revision_tells_past_the_last :
    let d : Document := { text := "class A \x7b", revision := 18446744073709551615 }
    let late := ((withDocument {} d).update (.edit (.insert 9 "\x7d"))).1
    let s := (late.update (.refreshDue 0)).1
    late.document = some (d.edit (.insert 9 "\x7d")) ∧ late.outline.revision = 18446744073709551615 ∧
      s.outline = outlineOf (d.edit (.insert 9 "\x7d")) {} 0 := by
  intro d late s
  have run : Counted s _ := ((Counted.withDocument {} d).update (.edit (.insert 9 "\x7d"))).update (.refreshDue 0)
  obtain ⟨active, config, same, wrapped⟩ :
      s.document = some (d.edit (.insert 9 "\x7d")) ∧ s.config = {} ∧
        s.outline.revision = (d.edit (.insert 9 "\x7d")).revision ∧ (d.edit (.insert 9 "\x7d")).revision = 0 := by
    decide +kernel
  have told := (run.revision_tells (by decide +kernel)).1 _ active same
  rw [config, wrapped] at told
  exact ⟨by decide +kernel, by decide +kernel, told⟩

end Session

end CodeOutline
