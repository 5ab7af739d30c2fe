import Mathlib.Data.List.Basic
import Mathlib.Tactic.Common

/-!
# Waiting for a withdrawal to show on chain

After the wallet's external message is sent, the command looks at the source and at the
destination again and again until one of two signs shows or its context is done. The second
sign is a source that holds less and a destination that holds more. The first one is a source
that is inactive or empty, and for an inactive source the balance is not looked at: a wallet
that was never deployed and receives a deposit shows it as well.
-/

namespace Gocoon.WithdrawConfirmation

set_option autoImplicit false

/-! ## Snapshots of an account -/

inductive AccountStatus where
  | active
  | uninit
  | frozen
  | nonExist
deriving DecidableEq, Repr

/-- `tlb.AccountState`; `balance` is what `Nano` gives, which may be nil. -/
structure AccountState where
  status : AccountStatus
  balance : Option Int
deriving DecidableEq, Repr

structure Account where
  isActive : Bool
  state : Option AccountState
  lastTxLT : UInt64
deriving DecidableEq, Repr

structure AccountSnapshot where
  active : Bool
  balance : Int
  lastTxLT : UInt64
deriving DecidableEq, Repr

/-- The part of `fetchAccountSnapshot` behind the two calls of the API. -/
def snapshotOf (acc : Option Account) : AccountSnapshot :=
  match acc with
  | none => ⟨false, 0, 0⟩
  | some acc =>
      match acc.state with
      | none => ⟨false, 0, 0⟩
      | some state =>
          ⟨acc.isActive && state.status == .active, state.balance.getD 0, acc.lastTxLT⟩

variable {ApiError : Type}

/-- `fetchAccountSnapshot`: `answer` is what `CurrentMasterchainInfo` and `GetAccount` give. -/
def fetchAccountSnapshot (answer : Except ApiError (Option Account)) :
    Except ApiError AccountSnapshot :=
  answer.map snapshotOf

/-- What one turn of the loop hears of the two accounts. -/
structure Poll (ApiError : Type) where
  source : Except ApiError (Option Account)
  dest : Except ApiError (Option Account)

/-! ## The loop -/

/-- The first test of `walletDrainedFrom`: both times are known and the later one is not later. -/
def NothingNew (before now : AccountSnapshot) : Prop :=
  now.lastTxLT ≠ 0 ∧ before.lastTxLT ≠ 0 ∧ now.lastTxLT ≤ before.lastTxLT

instance (before now : AccountSnapshot) : Decidable (NothingNew before now) :=
  inferInstanceAs (Decidable (_ ∧ _ ∧ _))

/-- `walletDrainedFrom`, whose receiver and whose argument may be nil. -/
def walletDrainedFrom (now before : Option AccountSnapshot) : Bool :=
  match now with
  | none => false
  | some now =>
      if (∃ earlier ∈ before, NothingNew earlier now) then false
      else if !now.active then true
      else now.balance == 0

def drainedText : String := "source wallet is inactive or emptied"

def movedText : String := "source balance decreased and destination balance increased"

/-- The two tests of one turn, with the text that the first one to succeed returns. -/
def confirmation (sourceBefore destBefore : AccountSnapshot) (poll : Poll ApiError) :
    Option String :=
  match fetchAccountSnapshot poll.source with
  | .error _ => none
  | .ok sourceNow =>
      if walletDrainedFrom (some sourceNow) (some sourceBefore) then some drainedText
      else
        match fetchAccountSnapshot poll.dest with
        | .error _ => none
        | .ok destNow =>
            if sourceNow.balance < sourceBefore.balance ∧ destBefore.balance < destNow.balance
            then some movedText
            else none

inductive WithdrawError where
  | confirmationNotObserved
deriving DecidableEq, Repr

/-- `waitWalletWithdrawConfirmation` over the turns that are made before the context is done. -/
def waitWalletWithdrawConfirmation (sourceBefore destBefore : AccountSnapshot) :
    List (Poll ApiError) → Except WithdrawError String
  | [] => .error .confirmationNotObserved
  | poll :: later =>
      match confirmation sourceBefore destBefore poll with
      | some text => .ok text
      | none => waitWalletWithdrawConfirmation sourceBefore destBefore later

/-- The loop has not ended with `earlier` and ends with the turn after them. -/
def ReportsAt (sourceBefore destBefore : AccountSnapshot) (earlier : List (Poll ApiError))
    (poll : Poll ApiError) : Prop :=
  waitWalletWithdrawConfirmation sourceBefore destBefore earlier =
      .error .confirmationNotObserved ∧
    ∃ text, waitWalletWithdrawConfirmation sourceBefore destBefore (earlier ++ [poll]) = .ok text

section Loop

variable {sourceBefore destBefore : AccountSnapshot} {polls earlier later : List (Poll ApiError)}
  {poll : Poll ApiError} {text : String}

theorem wait_error_iff :
    waitWalletWithdrawConfirmation sourceBefore destBefore polls =
        .error .confirmationNotObserved ↔
      ∀ poll ∈ polls, confirmation sourceBefore destBefore poll = none := by
  induction polls with
  | nil => simp [waitWalletWithdrawConfirmation]
  | cons poll later induction =>
      rw [waitWalletWithdrawConfirmation, List.forall_mem_cons]
      cases confirmation sourceBefore destBefore poll with
      | none => simp [induction]
      | some text => simp

theorem wait_append
    (silent : ∀ poll ∈ earlier, confirmation sourceBefore destBefore poll = none) :
    waitWalletWithdrawConfirmation sourceBefore destBefore (earlier ++ later) =
      waitWalletWithdrawConfirmation sourceBefore destBefore later := by
  induction earlier with
  | nil => rfl
  | cons poll earlier induction =>
      rw [List.forall_mem_cons] at silent
      rw [List.cons_append, waitWalletWithdrawConfirmation, silent.1]
      exact induction silent.2

theorem reports_at_iff :
    ReportsAt sourceBefore destBefore earlier poll ↔
      (∀ earlierPoll ∈ earlier, confirmation sourceBefore destBefore earlierPoll = none) ∧
        ∃ text, confirmation sourceBefore destBefore poll = some text := by
  rw [ReportsAt, wait_error_iff]
  apply and_congr_right
  intro silent
  rw [wait_append silent]
  simp only [waitWalletWithdrawConfirmation]
  cases confirmation sourceBefore destBefore poll with
  | none => simp
  | some text => simp

theorem wait_reports (reported : waitWalletWithdrawConfirmation sourceBefore destBefore polls =
    .ok text) :
    ∃ earlier poll later, polls = earlier ++ poll :: later ∧
      ReportsAt sourceBefore destBefore earlier poll := by
  induction polls with
  | nil => cases reported
  | cons poll rest induction =>
      cases sign : confirmation sourceBefore destBefore poll with
      | some shown =>
          have first : ReportsAt sourceBefore destBefore [] poll :=
            reports_at_iff.mpr ⟨List.forall_mem_nil _, shown, sign⟩
          exact ⟨[], poll, rest, rfl, first⟩
      | none =>
          rw [waitWalletWithdrawConfirmation, sign] at reported
          obtain ⟨earlier, reporting, later, split, reports⟩ := induction reported
          rw [reports_at_iff] at reports
          have silent : ∀ seen ∈ poll :: earlier,
              confirmation sourceBefore destBefore seen = none :=
            List.forall_mem_cons.mpr ⟨sign, reports.1⟩
          exact ⟨poll :: earlier, reporting, later, congrArg (poll :: ·) split,
            reports_at_iff.mpr ⟨silent, reports.2⟩⟩

end Loop

/-! ## What a sign means -/

def SourceLower (sourceBefore : AccountSnapshot) (poll : Poll ApiError) : Prop :=
  ∃ now, fetchAccountSnapshot poll.source = .ok now ∧ now.balance < sourceBefore.balance

def DestHigher (destBefore : AccountSnapshot) (poll : Poll ApiError) : Prop :=
  ∃ now, fetchAccountSnapshot poll.dest = .ok now ∧ destBefore.balance < now.balance

/-- The source is inactive or empty, and its last transaction is not known to be an old one. -/
def SourceDrained (sourceBefore : AccountSnapshot) (poll : Poll ApiError) : Prop :=
  ∃ now, fetchAccountSnapshot poll.source = .ok now ∧ ¬ NothingNew sourceBefore now ∧
    (now.active = false ∨ now.balance = 0)

section Signs

variable {sourceBefore destBefore : AccountSnapshot} {poll : Poll ApiError}

theorem wallet_drained_iff {before now : AccountSnapshot} :
    walletDrainedFrom (some now) (some before) = true ↔
      ¬ NothingNew before now ∧ (now.active = false ∨ now.balance = 0) := by
  by_cases old : NothingNew before now
  · simp [walletDrainedFrom, old]
  · cases active : now.active with
    | false => simp [walletDrainedFrom, old, active]
    | true => simp [walletDrainedFrom, old, active]

theorem confirmation_iff :
    (∃ text, confirmation sourceBefore destBefore poll = some text) ↔
      SourceDrained sourceBefore poll ∨
        SourceLower sourceBefore poll ∧ DestHigher destBefore poll := by
  unfold confirmation SourceDrained SourceLower DestHigher
  cases fetchAccountSnapshot poll.source with
  | error fault => simp
  | ok sourceNow =>
      simp only [Except.ok.injEq, exists_eq_left', ← wallet_drained_iff]
      by_cases drained : walletDrainedFrom (some sourceNow) (some sourceBefore) = true
      · simp [drained]
      · cases fetchAccountSnapshot poll.dest with
        | error fault => simp [drained]
        | ok destNow => simp [drained]

end Signs

/-- The drained sign while the source holds no less than before. -/
def FalseSign (sourceBefore : AccountSnapshot) (poll : Poll ApiError) : Prop :=
  SourceDrained sourceBefore poll ∧ ¬ SourceLower sourceBefore poll

/-- One of the two signs while the source holds less than before. -/
def TrueSign (sourceBefore destBefore : AccountSnapshot) (poll : Poll ApiError) : Prop :=
  SourceLower sourceBefore poll ∧
    (SourceDrained sourceBefore poll ∨ DestHigher destBefore poll)

theorem sign_iff {sourceBefore destBefore : AccountSnapshot} {poll : Poll ApiError} :
    (∃ text, confirmation sourceBefore destBefore poll = some text) ↔
      FalseSign sourceBefore poll ∨ TrueSign sourceBefore destBefore poll := by
  rw [confirmation_iff, FalseSign, TrueSign]
  tauto

/-- A confirmation is reported only at a turn in which the source holds less than before,
exactly if each turn with the drained sign and no lower balance comes after a turn that has
shown a true one. -/
theorem withdrawal_confirmed_iff (sourceBefore destBefore : AccountSnapshot)
    (polls : List (Poll ApiError)) :
    (∀ earlier poll later, polls = earlier ++ poll :: later →
        ReportsAt sourceBefore destBefore earlier poll → SourceLower sourceBefore poll) ↔
      ∀ earlier poll later, polls = earlier ++ poll :: later →
        FalseSign sourceBefore poll → ∃ seen ∈ earlier, TrueSign sourceBefore destBefore seen := by
  constructor
  · intro honest earlier poll later split misleading
    cases ended : waitWalletWithdrawConfirmation sourceBefore destBefore earlier with
    | error fault =>
        have reports : ReportsAt sourceBefore destBefore earlier poll :=
          reports_at_iff.mpr ⟨wait_error_iff.mp ended, sign_iff.mpr (Or.inl misleading)⟩
        exact absurd (honest earlier poll later split reports) misleading.2
    | ok text =>
        obtain ⟨before, seen, after, inside, reports⟩ := wait_reports ended
        have whole : polls = before ++ seen :: (after ++ poll :: later) := by
          rw [split, inside, List.append_assoc, List.cons_append]
        have lower := honest before seen _ whole reports
        have sign := sign_iff.mp (reports_at_iff.mp reports).2
        have genuine := sign.resolve_left fun misled => misled.2 lower
        exact ⟨seen, by simp [inside], genuine⟩
  · intro covered earlier poll later split reports
    rw [reports_at_iff, sign_iff] at reports
    obtain ⟨silent, misleading | genuine⟩ := reports
    · obtain ⟨seen, inside, shown⟩ := covered earlier poll later split misleading
      obtain ⟨text, sign⟩ := sign_iff.mpr (Or.inr shown)
      rw [silent seen inside] at sign
      cases sign
    · exact genuine.1

def undeployedSource : AccountSnapshot := ⟨false, 5, 10⟩

def quietDest : AccountSnapshot := ⟨true, 7, 9⟩

def depositPoll : Poll Unit :=
  ⟨.ok (some ⟨false, some ⟨.uninit, some 8⟩, 11⟩), .ok (some ⟨true, some ⟨.active, some 7⟩, 9⟩)⟩

/-- A deposit at a wallet that is not deployed yet is reported as the end of the withdrawal. -/
theorem deposit_reported_as_withdrawal :
    undeployedSource.balance ≠ 0 ∧
      waitWalletWithdrawConfirmation undeployedSource quietDest [depositPoll] =
        .ok "source wallet is inactive or emptied" ∧
      ReportsAt undeployedSource quietDest [] depositPoll ∧
      ¬ SourceLower undeployedSource depositPoll ∧
      fetchAccountSnapshot depositPoll.source = .ok ⟨false, 8, 11⟩ := by
  have fetched : fetchAccountSnapshot depositPoll.source = .ok ⟨false, 8, 11⟩ := rfl
  have reported : waitWalletWithdrawConfirmation undeployedSource quietDest [depositPoll] =
      .ok drainedText := by
    decide
  have higher : ¬ SourceLower undeployedSource depositPoll := by
    simp [SourceLower, fetched, undeployedSource]
  exact ⟨by decide, reported, ⟨rfl, drainedText, reported⟩, higher, fetched⟩

end Gocoon.WithdrawConfirmation
