/-
  File:      NokincFactory/Domain/ReviewBase.lean
  Subject:   `review_base.py`: the owned value types of the review protocol, their
             validators, and the errors a policy call can raise.

  * `Identifier`, `Text`: strings that passed their validator;
  * `Datetime`, `Moment`, `utc`: an injected time, an instant, and the conversion
    that refuses a naive or unrepresentable one;
  * `totalSeconds`: `timedelta.total_seconds()`, a double;
  * `ValueError`, `PyError`: what `except ValueError` catches, and what it does not;
  * `distinct`, `require`: the two checks that raise.
-/
import Mathlib.Algebra.Order.Ring.Int
import NokincFactory.Domain.Json
import NokincFactory.Lib.Binary64
import NokincFactory.Lib.Checked

namespace NokincFactory

/-! ## 1. Strings -/

/-- First characters of an `Identifier`: `[A-Za-z0-9]`. -/
def identifierHead (c : Char) : Bool :=
  ('A' ≤ c && c ≤ 'Z') || ('a' ≤ c && c ≤ 'z') || ('0' ≤ c && c ≤ '9')

/-- Later characters of an `Identifier`: `[A-Za-z0-9._:/@+-]`. -/
def identifierTail (c : Char) : Bool :=
  identifierHead c || "._:/@+-".toList.contains c

/-- The pattern `^[A-Za-z0-9][A-Za-z0-9._:/@+-]{0,199}$`. -/
def identifierPattern : List Char → Bool
  | [] => false
  | c :: cs => identifierHead c && cs.all identifierTail && cs.length ≤ 199

/-- A string that matches the identifier pattern. -/
structure Identifier where
  text : String
  pattern : identifierPattern text.toList = true
deriving DecidableEq

/-- The characters `str.strip` removes. -/
def isSpace (c : Char) : Bool :=
  let n := c.toNat
  (9 ≤ n && n ≤ 13) || (28 ≤ n && n ≤ 32) || n = 0x85 || n = 0xa0 || n = 0x1680 ||
    (0x2000 ≤ n && n ≤ 0x200a) || n = 0x2028 || n = 0x2029 || n = 0x202f || n = 0x205f ||
    n = 0x3000

/-- A string that is not blank. -/
structure Text where
  text : String
  nonblank : text.toList.any (fun c => !isSpace c) = true
deriving DecidableEq

def Identifier.json (i : Identifier) : Json := .text i.text
def Text.json (t : Text) : Json := .text t.text
def Digest.json (d : Digest) : Json := .str d.text
def Json.ofNat (n : Nat) : Json := .int n

/-! ## 2. Errors -/

/-- Why a review step is refused or a session is not eligible. -/
inductive ReviewReason where
  | timeWindow | artifactDrift | identityUnavailable | bindingMismatch | replay
  | receiptUnavailable | receiptMismatch | authorizationRevoked | executionInvalid | outputLimit
  | budgetOverrun | invocationLimit | tokenLimit | costLimit | repairLimit | reviewLimit
  | repeatedFailure | noProgress | critical | contractGap | contextGap | reviewEscalated
  | malformedReport | incompleteCriteria | missingEvidence | invalidClosure | invalidRepair
  | unsupportedVerdict | mandatoryCriteria | minReviews | unreviewedArtifact | openBlockers
  | pending
deriving DecidableEq

/-- The value of the enumeration member, which is also its sort key. -/
def ReviewReason.value : ReviewReason → String
  | .timeWindow => "TIME_WINDOW"
  | .artifactDrift => "ARTIFACT_DRIFT"
  | .identityUnavailable => "IDENTITY_UNAVAILABLE"
  | .bindingMismatch => "BINDING_MISMATCH"
  | .replay => "REPLAY"
  | .receiptUnavailable => "RECEIPT_UNAVAILABLE"
  | .receiptMismatch => "RECEIPT_MISMATCH"
  | .authorizationRevoked => "AUTHORIZATION_REVOKED"
  | .executionInvalid => "EXECUTION_INVALID"
  | .outputLimit => "OUTPUT_LIMIT"
  | .budgetOverrun => "BUDGET_OVERRUN"
  | .invocationLimit => "INVOCATION_LIMIT"
  | .tokenLimit => "TOKEN_LIMIT"
  | .costLimit => "COST_LIMIT"
  | .repairLimit => "REPAIR_LIMIT"
  | .reviewLimit => "REVIEW_LIMIT"
  | .repeatedFailure => "REPEATED_FAILURE"
  | .noProgress => "NO_PROGRESS"
  | .critical => "CRITICAL"
  | .contractGap => "CONTRACT_GAP"
  | .contextGap => "CONTEXT_GAP"
  | .reviewEscalated => "REVIEW_ESCALATED"
  | .malformedReport => "MALFORMED_REPORT"
  | .incompleteCriteria => "INCOMPLETE_CRITERIA"
  | .missingEvidence => "MISSING_EVIDENCE"
  | .invalidClosure => "INVALID_CLOSURE"
  | .invalidRepair => "INVALID_REPAIR"
  | .unsupportedVerdict => "UNSUPPORTED_VERDICT"
  | .mandatoryCriteria => "MANDATORY_CRITERIA"
  | .minReviews => "MIN_REVIEWS"
  | .unreviewedArtifact => "UNREVIEWED_ARTIFACT"
  | .openBlockers => "OPEN_BLOCKERS"
  | .pending => "PENDING"

/-- Every reason, in the order of the source. -/
def ReviewReason.all : List ReviewReason :=
  [.timeWindow, .artifactDrift, .identityUnavailable, .bindingMismatch, .replay,
   .receiptUnavailable, .receiptMismatch, .authorizationRevoked, .executionInvalid, .outputLimit,
   .budgetOverrun, .invocationLimit, .tokenLimit, .costLimit, .repairLimit, .reviewLimit,
   .repeatedFailure, .noProgress, .critical, .contractGap, .contextGap, .reviewEscalated,
   .malformedReport, .incompleteCriteria, .missingEvidence, .invalidClosure, .invalidRepair,
   .unsupportedVerdict, .mandatoryCriteria, .minReviews, .unreviewedArtifact, .openBlockers,
   .pending]

theorem ReviewReason.mem_all (r : ReviewReason) : r ∈ ReviewReason.all := by
  cases r <;> decide

theorem ReviewReason.value_injective : Function.Injective ReviewReason.value := by
  have hn : (ReviewReason.all.map ReviewReason.value).Nodup := by decide +kernel
  intro a b h
  exact List.inj_on_of_nodup_map hn a.mem_all b.mem_all h

/-- Reasons order as their values do: `sorted` over a `StrEnum`. -/
instance : LinearOrder ReviewReason :=
  LinearOrder.lift' ReviewReason.value ReviewReason.value_injective

/-- What `except ValueError` catches: a `ReviewViolation` with its reason, or another
    `ValueError` (pydantic's `ValidationError` is one) with its message. -/
inductive ValueError where
  | violation (reason : ReviewReason)
  | message (text : String)
deriving DecidableEq

/-- What a policy call can raise; an `OverflowError` is not a `ValueError`. -/
inductive PyError where
  | value (error : ValueError)
  | overflow (text : String)
deriving DecidableEq

/-- `review_rules.require`. -/
def require (condition : Prop) [Decidable condition] (reason : ReviewReason) :
    Except ValueError Unit :=
  guardThat condition (.violation reason)

@[simp] theorem require_ok {p : Prop} [Decidable p] {r : ReviewReason} {u : Unit} :
    require p r = .ok u ↔ p := guardThat_ok

/-- `review_base.distinct`. -/
def distinct {α : Type} [DecidableEq α] (values : List α) : Except ValueError Unit :=
  guardThat values.Nodup (.message "Review identities must be distinct")

@[simp] theorem distinct_ok {α : Type} [DecidableEq α] {values : List α} {u : Unit} :
    distinct values = .ok u ↔ values.Nodup := guardThat_ok

/-! ## 3. Time -/

/-- Microseconds in a second. -/
abbrev micro : Int := 1000000

/-- The first instant `datetime` can hold, in microseconds from the epoch. -/
def earliest : Int := -62135596800 * micro

/-- The last instant `datetime` can hold. -/
def latest : Int := 253402300799 * micro + 999999

/-- An instant in UTC, in microseconds from the epoch. -/
structure Moment where
  micros : Int
  lower : earliest ≤ micros
  upper : micros ≤ latest
deriving DecidableEq

instance : LinearOrder Moment :=
  LinearOrder.lift' Moment.micros fun a b h => by
    cases a
    cases b
    exact (Moment.mk.injEq ..).mpr h

/-- An injected `datetime`: a wall clock and, when it is aware, its offset. -/
structure Datetime where
  wall : Int
  offset : Option Int
deriving DecidableEq

/-- `review_base.utc`. -/
def utc (value : Datetime) : Except ValueError Moment :=
  match value.offset with
  | none => .error (.message "An aware injected time is required")
  | some offset =>
      if h : earliest ≤ value.wall - offset ∧ value.wall - offset ≤ latest then
        .ok ⟨value.wall - offset, h.1, h.2⟩
      else .error (.message "Timestamp is outside the supported UTC range")

/-- An instant as an aware `datetime`. -/
def Moment.datetime (m : Moment) : Datetime := ⟨m.micros, some 0⟩

@[simp] theorem utc_datetime (m : Moment) : utc m.datetime = .ok m := by
  unfold utc Moment.datetime
  simp only [Int.sub_zero]
  rw [dif_pos ⟨m.lower, m.upper⟩]

/-- A decimal number with at least `width` digits. -/
def padded (width n : Nat) : List Char :=
  let digits := Nat.toDigits 10 n
  List.replicate (width - digits.length) '0' ++ digits

/-- Year, month and day of a day counted from the epoch, in the proleptic Gregorian
    calendar: years are counted from March, in eras of 400 years. -/
def civil (day : Int) : Nat × Nat × Nat :=
  let shifted := day + 719468
  let era := shifted / 146097
  let dayOfEra := (shifted % 146097).toNat
  let yearOfEra := (dayOfEra - dayOfEra / 1460 + dayOfEra / 36524 - dayOfEra / 146096) / 365
  let dayOfYear := dayOfEra - (365 * yearOfEra + yearOfEra / 4 - yearOfEra / 100)
  let fromMarch := (5 * dayOfYear + 2) / 153
  let month := if fromMarch < 10 then fromMarch + 3 else fromMarch - 9
  let year := (yearOfEra + era * 400).toNat + (if month ≤ 2 then 1 else 0)
  (year, month, dayOfYear - (153 * fromMarch + 2) / 5 + 1)

/-- The ISO text a model dumps of an instant, with the microseconds when there are any. -/
def Moment.isoformat (m : Moment) : List Char :=
  let seconds := m.micros / micro
  let fraction := (m.micros % micro).toNat
  let second := (seconds % 86400).toNat
  let (year, month, day) := civil (seconds / 86400)
  padded 4 year ++ '-' :: padded 2 month ++ '-' :: padded 2 day ++
    'T' :: padded 2 (second / 3600) ++ ':' :: padded 2 (second / 60 % 60) ++
    ':' :: padded 2 (second % 60) ++
    (if fraction = 0 then [] else '.' :: padded 6 fraction) ++ ['Z']

def Moment.json (m : Moment) : Json := .str m.isoformat

example : (⟨1789257600 * micro + 250, by decide, by decide⟩ : Moment).isoformat =
    "2026-09-13T00:00:00.000250Z".toList := by decide

/-- `(later - earlier).total_seconds()`: the microseconds over a million, correctly
    rounded to a double. -/
def totalSeconds (later earlier : Moment) : ℚ :=
  Binary64.round (((later.micros - earlier.micros : Int) : ℚ) / 1000000)

theorem span_bound (later earlier : Moment) :
    |((later.micros - earlier.micros : Int) : ℚ) / 1000000| ≤ 2 ^ 52 - 1 := by
  have h1 := later.lower
  have h2 := later.upper
  have h3 := earlier.lower
  have h4 := earlier.upper
  unfold NokincFactory.earliest at h1 h3
  unfold NokincFactory.latest at h2 h4
  have hlo : (-(2 ^ 52 - 1) * 1000000 : Int) ≤ later.micros - earlier.micros := by
    unfold micro at *
    omega
  have hhi : later.micros - earlier.micros ≤ ((2 ^ 52 - 1) * 1000000 : Int) := by
    unfold micro at *
    omega
  rw [abs_le]
  constructor
  · rw [le_div_iff₀ (by norm_num)]
    exact_mod_cast hlo
  · rw [div_le_iff₀ (by norm_num)]
    exact_mod_cast hhi

/-- A span the code finds shorter than `n` seconds is shorter than `n` seconds. -/
theorem lt_of_totalSeconds_lt {later earlier : Moment} {n : Nat}
    (h : totalSeconds later earlier < n) :
    later.micros - earlier.micros < n * micro := by
  by_contra hge
  have hq : (n : ℚ) ≤ ((later.micros - earlier.micros : Int) : ℚ) / 1000000 := by
    rw [le_div_iff₀ (by norm_num)]
    exact_mod_cast not_lt.mp hge
  have hn : |(n : Int)| < 2 ^ 53 := by
    have := (abs_le.mp (span_bound later earlier)).2
    have hlt : (n : ℚ) ≤ 2 ^ 52 - 1 := hq.trans this
    rw [abs_of_nonneg (Int.natCast_nonneg n)]
    have : ((n : Int) : ℚ) < ((2 ^ 53 : Int) : ℚ) := by
      push_cast
      linarith
    exact_mod_cast this
  have hr : ((n : Int) : ℚ) ≤ totalSeconds later earlier := Binary64.le_round hn (by simpa using hq)
  rw [Int.cast_natCast] at hr
  exact absurd h (not_lt.mpr hr)

/-- A span the code does not find negative is not negative. -/
theorem nonneg_of_totalSeconds {later earlier : Moment} (h : 0 ≤ totalSeconds later earlier) :
    earlier.micros ≤ later.micros := by
  by_contra hlt
  have hone : ((later.micros - earlier.micros : Int) : ℚ) ≤ ((-1 : Int) : ℚ) := by
    exact_mod_cast (by omega : later.micros - earlier.micros ≤ -1)
  have hsmall : ((2 : ℚ) ^ Binary64.leastNormal) ≤ 1 / 1000000 := by
    have hle : (2 : ℚ) ^ Binary64.leastNormal ≤ 2 ^ (-20 : ℤ) :=
      zpow_le_zpow_right₀ (by norm_num) (by decide)
    refine hle.trans ?_
    norm_num
  have hneg : totalSeconds later earlier < 0 := by
    refine Binary64.round_neg ?_
    rw [div_le_iff₀ (by norm_num)]
    push_cast at hone ⊢
    linarith
  exact absurd h (not_le.mpr hneg)

end NokincFactory
