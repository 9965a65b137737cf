import Mathlib

/-!
# Journals

A system writes reports about what it does.  A journal looks at one part of
its state: it says which reports concern that part, when two states agree on
it, and what a report settles about it.  A run follows the journal when the
part is as its last report settled it, or unchanged if no report concerns it.

Two systems that follow the same reports agree at the end, if each report
settles the same on both sides.  What the part held before does not matter
once a report concerns it.
-/

namespace CyfsGateway.Journals

structure Journal (State Report : Type) where
  concerns : Report → Bool
  Same : State → State → Prop
  Settles : Report → State → Prop
  refl : ∀ state, Same state state
  trans : ∀ {first second third}, Same first second → Same second third → Same first third
  keeps : ∀ {report first second}, Settles report first → Same first second → Settles report second

variable {State Report : Type}

/-- The last report that concerns the part. -/
def Journal.latest (journal : Journal State Report) (reports : List Report) : Option Report :=
  reports.reverse.find? journal.concerns

/-- The part is as the reports of the run say: as the latest report about it settled it,
or as at the start if there is none. -/
def Journal.Follows (journal : Journal State Report) (first : State)
    (reports : List Report) (last : State) : Prop :=
  match journal.latest reports with
  | none => journal.Same first last
  | some report => journal.Settles report last

section Rules

variable {journal : Journal State Report}

@[simp]
theorem latest_nil : journal.latest [] = none := rfl

theorem latest_append :
    journal.latest (reports ++ more) = (journal.latest more).or (journal.latest reports) := by
  rw [Journal.latest, List.reverse_append, List.find?_append]
  rfl

theorem latest_cons : journal.latest (report :: reports) =
      (journal.latest reports).or (if journal.concerns report then some report else none) := by
  cases hconc : journal.concerns report <;> simp [Journal.latest, hconc]

theorem latest_eq_none_iff :
    journal.latest reports = none ↔ ∀ entry ∈ reports, journal.concerns entry = false := by
  simp [Journal.latest]

theorem latest_eq_some (hlatest : journal.latest reports = some report) :
    report ∈ reports ∧ journal.concerns report = true := by
  exact ⟨List.mem_reverse.mp (List.mem_of_find?_eq_some hlatest), List.find?_some hlatest⟩

theorem Journal.Follows.nil (hsame : journal.Same first second) : journal.Follows first [] second :=
  hsame

theorem Journal.Follows.single
    (hquiet : journal.concerns report = false → journal.Same first second)
    (hsettles : journal.concerns report = true → journal.Settles report second) :
    journal.Follows first [report] second := by
  cases hconc : journal.concerns report with
  | false => simpa [Journal.Follows, latest_cons, hconc] using hquiet hconc
  | true => simpa [Journal.Follows, latest_cons, hconc] using hsettles hconc

theorem Journal.Follows.append (hleft : journal.Follows first reports second)
    (hright : journal.Follows second more third) :
    journal.Follows first (reports ++ more) third := by
  rw [Journal.Follows, latest_append]
  rw [Journal.Follows] at hright
  cases hmore : journal.latest more with
  | some report => simpa [hmore] using hright
  | none =>
    rw [hmore] at hright
    rw [Journal.Follows] at hleft
    cases hreports : journal.latest reports with
    | none => exact journal.trans (by simpa [hreports] using hleft) hright
    | some report => exact journal.keeps (by simpa [hreports] using hleft) hright

/-- A part about which reports settle nothing follows any run that reports it. -/
theorem Journal.Follows.of_trivial (htrivial : ∀ entry state, journal.Settles entry state)
    (hreport : report ∈ reports) (hconc : journal.concerns report = true) :
    journal.Follows first reports second := by
  rw [Journal.Follows]
  cases hlatest : journal.latest reports with
  | some entry => exact htrivial entry second
  | none =>
    have hquiet := latest_eq_none_iff.mp hlatest report hreport
    rw [hconc] at hquiet
    cases hquiet

/-- A report holds at the end, unless a later one takes its place. -/
theorem Journal.Follows.settled
    (hfollows : journal.Follows first (reports ++ report :: more) second)
    (hconc : journal.concerns report = true) :
    ∃ later ∈ report :: more, journal.concerns later = true ∧ journal.Settles later second := by
  rw [Journal.Follows, latest_append] at hfollows
  cases hlatest : journal.latest (report :: more) with
  | none =>
    have hquiet := latest_eq_none_iff.mp hlatest report List.mem_cons_self
    rw [hconc] at hquiet
    cases hquiet
  | some later =>
    rw [hlatest, Option.some_or] at hfollows
    obtain ⟨hmem, hlater⟩ := latest_eq_some hlatest
    exact ⟨later, hmem, hlater, hfollows⟩

end Rules

end CyfsGateway.Journals
