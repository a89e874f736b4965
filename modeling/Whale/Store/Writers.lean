import Whale.Store.Runtime
import Whale.Lib.Run

/-!
# The writers of a record

A stored record is replaced by five kinds of call: a command of a journal, `attach`, `forget`,
`retire_detached` and the loop body of `open`. Each loads the record, computes a replacement and
submits it with the revision it read. `Writer.submit` is the part between the load and the exchange;
`Write` is a call no other call interleaves with.
-/

namespace Whale

open Check

/-- A call that replaces a record, with everything it is given besides the record it loads. -/
inductive Writer where
  | journal (lease : Lease) (inp : Inputs) (action : Action)
  | attach (key : RecoveryKey) (expected : Nat) (configuration : Value) (owner thread : String)
      (now : Nat)
  | forget (key : RecoveryKey) (expected now : Nat)
  | retire (id : String) (expected now : Nat) (reason : String)
  | opened (id : String) (now : Nat)

/-- What a call submits: the expected revision, the replacement and, for a journal command, the
response prepared for it. -/
structure Submission where
  expected : Nat
  new : SessionRecord
  response : Option Response

/-- The exchange a journal command reaches. -/
def Loaded.submission : Loaded → Option Submission
  | .exchange revision new response => some ⟨revision, new, some response⟩
  | .answer _ _ => none

/-- The exchange of a call that is not a journal command. -/
def submission (expected : Nat) : Except StoreError (Option SessionRecord) → Option Submission
  | .ok (some new) => some ⟨expected, new, none⟩
  | .ok none => none
  | .error _ => none

namespace Writer

/-- The recovery id of the record the call loads. -/
def target : Writer → String
  | journal lease _ _ => lease.id
  | attach key .. => key.recoveryId
  | forget key .. => key.recoveryId
  | retire id .. => id
  | opened id _ => id

/-- The call does not retire its record. -/
def keeps : Writer → Bool
  | forget .. => false
  | retire .. => false
  | _ => true

section
variable [External]

/-- What the call submits after loading `r`; `none` when it ends without an exchange. -/
def submit (w : Writer) (r : SessionRecord) : Option Submission :=
  match w with
  | journal lease inp action => (afterLoad lease inp action (.ok (some r))).submission
  | attach key expected configuration owner thread now =>
    submission expected
      ((attachReplacement key expected configuration owner thread now (some r)).map some)
  | forget key expected now => submission expected (forgetReplacement key expected now (some r))
  | retire _ expected now reason => submission expected (retirementReplacement r expected now reason)
  | opened _ now => submission r.revision (openReplacement now r)

end

end Writer

/-- A call and the response prepared for it. -/
abbrev Committed := Writer × Option Response

section
variable [External]

/-- The call loads `r`, and its replacement `r'` is accepted. -/
structure Write (r : SessionRecord) (c : Committed) (r' : SessionRecord) : Prop where
  target : c.1.target = r.recoveryId
  submitted : c.1.submit r = some ⟨r.revision, r', c.2⟩
  accepted : validateReplace r r.recoveryId r.revision r' = .ok ()

/-- `create` stored `r`. -/
def Created (r : SessionRecord) : Prop :=
  ∃ key configuration owner thread now,
    newRecord key configuration owner thread now = .ok r ∧ validateCreate r = .ok ()

/-- A write that does not retire its record. -/
def Keep (r : SessionRecord) (c : Committed) (r' : SessionRecord) : Prop :=
  Write r c r' ∧ c.1.keeps = true

/-- The calls one after another, each accepted and none retiring: the commits and the last record. -/
def replay : SessionRecord → List Writer → Option (List Committed × SessionRecord)
  | r, [] => some ([], r)
  | r, w :: ws => do
    let s ← w.submit r
    if w.target == r.recoveryId && w.keeps && s.expected == r.revision &&
      (validateReplace r r.recoveryId r.revision s.new).isOk
    then (replay s.new ws).map fun p => ((w, s.response) :: p.1, p.2)
    else none

theorem replay_run : ∀ {ws : List Writer} {r r' : SessionRecord} {cs : List Committed},
    replay r ws = some (cs, r') → Lts.Run Keep r cs r'
  | [], r, r', cs, h => by
    cases h
    exact .nil r
  | w :: ws, r, r', cs, h => by
    obtain ⟨s, hs, h⟩ := Option.bind_eq_some_iff.1 h
    split at h
    · rename_i hc
      obtain ⟨⟨cs', r''⟩, hr, h⟩ := Option.map_eq_some_iff.1 h
      cases h
      simp only [Bool.and_eq_true, beq_iff_eq] at hc
      obtain ⟨⟨⟨ht, hk⟩, he⟩, hok⟩ := hc
      have hval : validateReplace r r.recoveryId r.revision s.new = .ok () := by
        cases hv : validateReplace r r.recoveryId r.revision s.new with
        | error e => rw [hv] at hok; cases hok
        | ok u => rfl
      exact .cons ⟨⟨ht, by rw [hs, ← he], hval⟩, hk⟩ (replay_run hr)
    · cases h

end

end Whale
