/-
  StackLint.Fixing.Selection
  ──────────────────────────
  **WHICH FIXES ARE APPLIED.**

  Offers that are not trusted or not confirmed are rejected.  Of the others,
  no two may change the same text: they are taken by confidence, and by place
  among those of one confidence, and each is skipped that is in the way of one
  taken before.  The accepted offers are listed in the order of their places
  again.
-/
import StackLint.Fixing.Basic

namespace StackLint

/-! ## §1. Rejection. -/

/-- Somebody has to be asked about the offer. -/
def FixOffer.needsConfirmation (options : FixOptions) (o : FixOffer) : Bool :=
  options.interactive && o.fix.confidence != .high

/-- The offer is trusted enough. -/
def FixOffer.isTrusted (options : FixOptions) (o : FixOffer) : Bool :=
  options.minConfidence.rank ≤ o.fix.confidence.rank

/-- The reason to reject an offer, if there is one. -/
def FixOffer.rejection? (options : FixOptions) (answers : Option Answers) (o : FixOffer) :
    Option SkipReason :=
  if !o.isTrusted options then
    some (.belowMinimum o.fix.confidence options.minConfidence)
  else if o.needsConfirmation options then
    match answers with
    | none => some (.unconfirmed o.fix.confidence)
    | some answers => if answers o then none else some .declined
  else none

/-- The offers that are not rejected. -/
def selectedOffers (options : FixOptions) (answers : Option Answers) (offers : List FixOffer) :
    List FixOffer :=
  offers.filter fun o => (o.rejection? options answers).isNone

/-- The offers that are rejected, with the reasons. -/
def rejectedOffers (options : FixOptions) (answers : Option Answers) (offers : List FixOffer) :
    List SkippedFix :=
  offers.filterMap fun o => (o.rejection? options answers).map (SkippedFix.mk o)

/-! ## §2. Questions. -/

/-- Somebody who is asked about the fixes of violations, one after the other.  An answer may
depend on what was asked before, and it may be that there is none. -/
abbrev Confirm := (before : List Violation) → Violation → Option Bool

namespace Confirm

/-- Somebody who looks at nothing but the violation, and always answers. -/
def ofFunction (mayApply : Violation → Bool) : Confirm :=
  fun _ v => some (mayApply v)

/-- The answers about offers, each after those about the offers in front of it. -/
def askFrom (confirm : Confirm) (before : List Violation) :
    List FixOffer → Option (List (FixOffer × Bool))
  | [] => some []
  | o :: offers => do
      let answer ← confirm before o.violation
      let others ← confirm.askFrom (before ++ [o.violation]) offers
      return (o, answer) :: others

/-- The answers about offers, if there is one about each. -/
def answers? (confirm : Confirm) (offers : List FixOffer) : Option Answers :=
  (confirm.askFrom [] offers).map fun told o => (told.lookup o).getD false

end Confirm

/-- The offers that somebody is asked about, in this order. -/
def askedOffers (options : FixOptions) (offers : List FixOffer) : List FixOffer :=
  offers.filter fun o => o.isTrusted options && o.needsConfirmation options

/-- The answers that offers are sorted out by, or nothing when somebody is asked and does not
answer. -/
def answersFor? (options : FixOptions) (confirm : Option Confirm) (offers : List FixOffer) :
    Option (Option Answers) :=
  match confirm with
  | none => some none
  | some confirm => (confirm.answers? (askedOffers options offers)).map some

/-! ## §3. Overlaps. -/

/-- The two fixes make the very same change. -/
def Fix.sameChange (f g : Fix) : Bool :=
  f.start == g.start && f.stop == g.stop && f.newCode == g.newCode

/-- The reason why an offer is in the way of an accepted one, if it is. -/
def FixOffer.conflictWith? (o accepted : FixOffer) : Option SkipReason :=
  if o.fix.sameChange accepted.fix then some (.duplicate accepted.code)
  else if o.fix.overlaps accepted.fix then some (.overlap accepted.code)
  else none

/-- Offers sorted out so far: the accepted ones, in the order in which they
were, and the others. -/
structure Resolution where
  accepted : List FixOffer
  skipped : List SkippedFix
  deriving DecidableEq, Repr

namespace Resolution

/-- Sorts out one more offer. -/
def add (r : Resolution) (o : FixOffer) : Resolution :=
  match r.accepted.findSome? o.conflictWith? with
  | none => { r with accepted := r.accepted ++ [o] }
  | some reason => { r with skipped := r.skipped ++ [⟨o, reason⟩] }

/-- Sorts out offers, the most confident ones first.  Among equally confident
ones their order counts. -/
def ofOffers (offers : List FixOffer) : Resolution :=
  (offers.mergeSort fun a b => b.fix.confidence.rank ≤ a.fix.confidence.rank).foldl add ⟨[], []⟩

/-- The accepted offers by their places. -/
def acceptedByPlace (r : Resolution) : List FixOffer :=
  r.accepted.mergeSort fun a b => a.place ≤ b.place

end Resolution

end StackLint
