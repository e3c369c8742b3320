import ZeroTrust.Server.Store
import Mathlib.Algebra.Order.Group.Abs
import Mathlib.Algebra.Order.Ring.Int

/-!
# The replay cache and the cleanup pass

`check_and_record` and `purge_old_nonces` of `server/replay.py`, and
`run_cleanup_pass` of `server/cleanup.py`.  Reading the clock and touching the table
are separate operations, so other programs may run in between.
-/

namespace ZeroTrust
namespace Server

open Python Effects

/-- A server program: it issues operations, and may raise. -/
abbrev ServerM := ExceptT PyExn (Prog Op Op.Res)

/-- `TIMESTAMP_WINDOW_SECONDS`. -/
def TIMESTAMP_WINDOW_SECONDS : ℤ := 30

/-- `NONCE_RETENTION_SECONDS`. -/
def NONCE_RETENTION_SECONDS : ℤ := 300

/-- `abs(now - int(timestamp)) > TIMESTAMP_WINDOW_SECONDS`. -/
def isStale (now timestamp : ℤ) : Bool :=
  TIMESTAMP_WINDOW_SECONDS < |now - timestamp|

theorem isStale_eq_false {now timestamp : ℤ} :
    isStale now timestamp = false ↔ now ≤ timestamp + 30 ∧ timestamp ≤ now + 30 := by
  rw [isStale, decide_eq_false_iff_not, not_lt, abs_le, TIMESTAMP_WINDOW_SECONDS]
  omega

/-- `check_and_record`. -/
def checkAndRecord (nonce : Bytes) (timestamp : ℤ) : ServerM Bool :=
  if nonce.length ≠ 16 then return false
  else do
    let now ← act .time
    if isStale now timestamp then return false
    else
      match ← attempt (act (.insertNonce nonce now)) with
      | .ok _ => return true
      | .error .integrityError => return false
      | .error e => throw e

/-- `purge_old_nonces`. -/
def purgeOldNonces : ServerM ℕ := do
  let now ← act .time
  act (Op.purgeNonces (now - NONCE_RETENTION_SECONDS))

/-- `run_cleanup_pass`. -/
def runCleanupPass : ServerM (ℕ × ℕ) := do
  let now ← act .time
  let noncesDeleted ← purgeOldNonces
  let filesExpired ← act (.markExpired now)
  return (noncesDeleted, filesExpired)

section

variable {A : List Ev → Op → Prop} {h : List Ev}

/-- What there is to show of a call of `check_and_record`. -/
theorem wpE_checkAndRecord {nonce : Bytes} {timestamp : ℤ}
    {Q : List Ev → Except PyExn Bool → Prop} (hlen : nonce.length = 16)
    (htime : A h .time)
    (hraise : ∀ x, Q (⟨.time, .error x⟩ :: h) (.error x))
    (hstale : ∀ now, isStale now timestamp = true → Q (⟨.time, .ok now⟩ :: h) (.ok false))
    (hinsert : ∀ now, isStale now timestamp = false →
      A (⟨.time, .ok now⟩ :: h) (.insertNonce nonce now) ∧
        Q (⟨.insertNonce nonce now, .ok ()⟩ :: ⟨.time, .ok now⟩ :: h) (.ok true) ∧
        Q (⟨.insertNonce nonce now, .error .integrityError⟩ :: ⟨.time, .ok now⟩ :: h)
          (.ok false) ∧
        ∀ x, x ≠ .integrityError →
          Q (⟨.insertNonce nonce now, .error x⟩ :: ⟨.time, .ok now⟩ :: h) (.error x)) :
    wpE (.isolated A) (checkAndRecord nonce timestamp) h Q := by
  rw [checkAndRecord, if_neg (not_not.mpr hlen), wpE_act_bind]
  refine ⟨htime, hraise, fun now => ?_⟩
  cases hs : isStale now timestamp with
  | true => exact hstale now hs
  | false =>
    obtain ⟨ha, hok, hdup, hother⟩ := hinsert now hs
    rw [if_neg Bool.false_ne_true, wpE_bind, wpE_attempt, wpE_act]
    refine ⟨ha, fun r => ?_⟩
    cases r with
    | ok u => exact hok
    | error x =>
      by_cases hx : x = .integrityError
      · subst hx
        exact hdup
      · cases x with
        | integrityError => exact absurd rfl hx
        | _ => exact hother _ hx

end

end Server
end ZeroTrust
