import Hookemon.Core.Scan
import Hookemon.Core.Transfers
import Hookemon.Js.Record
import Hookemon.Runner.ProRataDistribution

/-! # The fold over the Transfer logs (`distribution/snapshot-indexer.mjs`)

`foldTransferLogs` runs over the Transfer logs of the token in the order of the chain and
keeps a balance for every address, and what the zero address minted and burned. It refuses
a log that is malformed, out of order, too new, or that debits more than its sender has.
-/

namespace Hookemon.Runner.SnapshotIndexer

open Hookemon.Core Hookemon.Js

/-- A Transfer log; `sender` and `recipient` are its `from` and `to`. -/
structure TransferLog where
  blockNumber : Text
  logIndex : Text
  sender : Text
  recipient : Text
  value : Text
deriving DecidableEq, Repr

/-! ## Field checks -/

def assertAddress (value : Text) (label : String) (allowZero : Bool) : Except String Unit := do
  throwIf (¬ isLowerAddress value) (label ++ " must be a canonical lowercase EVM address")
  throwIf (¬ allowZero ∧ value = zeroEvmAddress) (label ++ " must be nonzero")

def assertDecimalString (value : Text) (label : String) (positive : Bool) :
    Except String Unit :=
  throwIf (¬ if positive then isPositiveDecimal value else isDecimal value)
    (label ++ " must be a canonical decimal string")

/-! ## The fold over the logs -/

/-- What the fold keeps: how many logs it has seen, where the last one stood, the running
balances, and what was minted and burned. -/
structure FoldState where
  position : Nat := 0
  previousBlock : Int := -1
  previousLogIndex : Int := -1
  balances : Record Nat := .empty
  mintedTotal : Nat := 0
  burnedTotal : Nat := 0

namespace FoldState

/-- `balances.get(address) ?? 0n`. -/
def balance (s : FoldState) (address : Text) : Nat := (s.balances.find address).getD 0

/-- A log has been seen. -/
def advance (s : FoldState) (blockNumber logIndex : Nat) : FoldState :=
  { s with
    position := s.position + 1
    previousBlock := blockNumber
    previousLogIndex := logIndex }

/-- The sender gives up the amount; the zero address mints it. -/
def debit (label : String) (sender : Text) (value : Nat) (s : FoldState) :
    Except String FoldState :=
  if sender = zeroEvmAddress then
    pure { s with mintedTotal := s.mintedTotal + value }
  else do
    let current := s.balance sender
    throwIf (current < value)
      (label ++ " debits more than the running balance — the transfer-log set is incomplete")
    pure { s with balances := s.balances.set sender (current - value) }

/-- The recipient gets the amount; the zero address burns it. -/
def credit (recipient : Text) (value : Nat) (s : FoldState) : FoldState :=
  if recipient = zeroEvmAddress then { s with burnedTotal := s.burnedTotal + value }
  else { s with balances := s.balances.set recipient (s.balance recipient + value) }

end FoldState

/-- The body of the loop of `foldTransferLogs`. -/
def foldTransferLog (snapshotBlock : Nat) (s : FoldState) (log : TransferLog) :
    Except String FoldState := do
  let label := "holder snapshot transfer log " ++ toString s.position
  assertDecimalString log.blockNumber (label ++ " block number") false
  assertDecimalString log.logIndex (label ++ " log index") false
  assertAddress log.sender (label ++ " from") true
  assertAddress log.recipient (label ++ " to") true
  assertDecimalString log.value (label ++ " value") false
  let blockNumber := textNat log.blockNumber
  let logIndex := textNat log.logIndex
  throwIf (snapshotBlock < blockNumber) (label ++ " is newer than the finalized snapshot block")
  throwIf ((blockNumber : Int) < s.previousBlock ∨
      ((blockNumber : Int) = s.previousBlock ∧ (logIndex : Int) ≤ s.previousLogIndex))
    (label ++ " is out of canonical (blockNumber, logIndex) order")
  let value := textNat log.value
  let s := s.advance blockNumber logIndex
  if value = 0 then pure s
  else do
    let s ← s.debit label log.sender value
    pure (s.credit log.recipient value)

def foldTransferLogs (transferLogs : List TransferLog) (snapshotBlockNumber : Text) :
    Except String FoldState :=
  transferLogs.foldlM (foldTransferLog (textNat snapshotBlockNumber)) {}
/-! ## What the checks accept -/

section

variable {value : Text} {label : String} {u : Unit}

theorem assertAddress_eq_ok : assertAddress value label true = .ok u ↔ isLowerAddress value := by
  simp [assertAddress]

theorem assertAddress_nonzero :
    assertAddress value label false = .ok u ↔ IsRecipient value := by
  simp [assertAddress, IsRecipient]

theorem assertDecimalString_eq_ok :
    assertDecimalString value label false = .ok u ↔ isDecimal value := by
  simp [assertDecimalString]

theorem assertDecimalString_positive :
    assertDecimalString value label true = .ok u ↔ isPositiveDecimal value := by
  simp [assertDecimalString]

end

/-- The tuple of a log is well formed. -/
structure TransferLog.WellFormed (log : TransferLog) : Prop where
  blockNumber : isDecimal log.blockNumber
  logIndex : isDecimal log.logIndex
  sender : isLowerAddress log.sender
  recipient : isLowerAddress log.recipient
  value : isDecimal log.value

/-- Where a log stands in the chain. -/
def TransferLog.position (log : TransferLog) : Nat ×ₗ Nat :=
  toLex (textNat log.blockNumber, textNat log.logIndex)

/-- What a log moves. -/
def TransferLog.transfer (log : TransferLog) : Transfer Text :=
  ⟨log.sender, log.recipient, textNat log.value⟩

/-- What the logs move. -/
def transfers (logs : List TransferLog) : List (Transfer Text) := logs.map TransferLog.transfer

@[simp] theorem transfers_concat (logs : List TransferLog) (log : TransferLog) :
    transfers (logs ++ [log]) = transfers logs ++ [log.transfer] := by
  simp [transfers]

/-- Logs that the fold goes through. -/
structure LogsAccepted (snapshotBlock : Nat) (logs : List TransferLog) : Prop where
  wellFormed : ∀ log ∈ logs, log.WellFormed
  notNewer : ∀ log ∈ logs, textNat log.blockNumber ≤ snapshotBlock
  ordered : (logs.map TransferLog.position).Pairwise (· < ·)
  covered : Covered zeroEvmAddress (transfers logs)

/-- What the next log has to be. -/
structure LogFits (snapshotBlock : Nat) (logs : List TransferLog) (log : TransferLog) : Prop where
  wellFormed : log.WellFormed
  notNewer : textNat log.blockNumber ≤ snapshotBlock
  later : ∀ last ∈ logs.getLast?, last.position < log.position
  covered : log.sender ≠ zeroEvmAddress →
    (textNat log.value : Int) ≤ net (transfers logs) log.sender

theorem logsAccepted_nil (snapshotBlock : Nat) : LogsAccepted snapshotBlock [] where
  wellFormed := by simp
  notNewer := by simp
  ordered := .nil
  covered := covered_nil

theorem logsAccepted_concat {snapshotBlock : Nat} {logs : List TransferLog} {log : TransferLog} :
    LogsAccepted snapshotBlock (logs ++ [log]) ↔
      LogsAccepted snapshotBlock logs ∧ LogFits snapshotBlock logs log := by
  have hordered : ((logs ++ [log]).map TransferLog.position).Pairwise (· < ·) ↔
      (logs.map TransferLog.position).Pairwise (· < ·) ∧
        ∀ last ∈ logs.getLast?, last.position < log.position := by
    rw [List.map_append, List.map_singleton, pairwise_concat_iff]
    simp
  have hcovered : Covered zeroEvmAddress (transfers (logs ++ [log])) ↔
      Covered zeroEvmAddress (transfers logs) ∧ (log.sender ≠ zeroEvmAddress →
        (textNat log.value : Int) ≤ net (transfers logs) log.sender) := by
    rw [transfers_concat, covered_concat]
    rfl
  constructor
  · rintro ⟨hwell, hnew, horder, hcover⟩
    rw [List.forall_mem_append, List.forall_mem_singleton] at hwell hnew
    exact ⟨⟨hwell.1, hnew.1, (hordered.mp horder).1, (hcovered.mp hcover).1⟩,
      ⟨hwell.2, hnew.2, (hordered.mp horder).2, (hcovered.mp hcover).2⟩⟩
  · rintro ⟨⟨hwell, hnew, horder, hcover⟩, ⟨hwell', hnew', horder', hcover'⟩⟩
    refine ⟨?_, ?_, hordered.mpr ⟨horder, horder'⟩, hcovered.mpr ⟨hcover, hcover'⟩⟩
    · rw [List.forall_mem_append, List.forall_mem_singleton]
      exact ⟨hwell, hwell'⟩
    · rw [List.forall_mem_append, List.forall_mem_singleton]
      exact ⟨hnew, hnew'⟩

/-! ## The balances of the fold -/

namespace FoldState

variable {s t : FoldState} {sender recipient address : Text} {value : Nat}

/-- What an address holds; the zero address has what was burned less what was minted. -/
def holding (s : FoldState) (address : Text) : Int :=
  if address = zeroEvmAddress then s.burnedTotal - s.mintedTotal else s.balance address

/-- All that addresses hold, the zero address among them. -/
def surplus (s : FoldState) : Int := s.balances.values.sum + s.burnedTotal - s.mintedTotal

/-- The state after a debit that is covered. -/
def debited (s : FoldState) (sender : Text) (value : Nat) : FoldState :=
  if sender = zeroEvmAddress then { s with mintedTotal := s.mintedTotal + value }
  else { s with balances := s.balances.set sender (s.balance sender - value) }

theorem holding_nonzero (h : address ≠ zeroEvmAddress) : s.holding address = s.balance address :=
  if_neg h

theorem debit_eq_ok {label : String} : s.debit label sender value = .ok t ↔
    (sender ≠ zeroEvmAddress → (value : Int) ≤ s.holding sender) ∧ t = s.debited sender value := by
  by_cases hzero : sender = zeroEvmAddress
  · simp only [debit, debited, hzero, if_true, ne_eq, not_true_eq_false, false_implies, true_and,
      pure_eq_ok]
    rw [eq_comm]
  · simp only [debit, debited, hzero, if_false, bind_eq_ok, revertIf_eq_ok, pure_eq_ok,
      exists_const, ne_eq, not_false_eq_true, true_implies, holding_nonzero hzero, not_lt,
      Nat.cast_le]
    rw [eq_comm (a := t)]

theorem balance_set (newValue : Nat) :
    ({ s with balances := s.balances.set sender newValue } : FoldState).balance address
      = if address = sender then newValue else s.balance address := by
  rw [balance, Record.find_set]
  split <;> rfl

theorem holding_debited (hcovered : sender ≠ zeroEvmAddress → (value : Int) ≤ s.holding sender) :
    (s.debited sender value).holding address
      = s.holding address - if sender = address then (value : Int) else 0 := by
  by_cases hsender : sender = zeroEvmAddress
  · by_cases haddress : address = zeroEvmAddress
    · simp only [debited, hsender, haddress, holding, if_true]
      push_cast
      ring
    · have hne : zeroEvmAddress ≠ address := Ne.symm haddress
      simp [debited, hsender, haddress, hne, holding, balance]
  · have hle : value ≤ s.balance sender := by
      have h := hcovered hsender
      rw [holding_nonzero hsender] at h
      exact_mod_cast h
    rw [debited, if_neg hsender]
    by_cases haddress : address = zeroEvmAddress
    · have hne : sender ≠ address := haddress ▸ hsender
      simp [holding, haddress, haddress ▸ hne]
    · rw [holding_nonzero haddress, holding_nonzero haddress, balance_set]
      by_cases hsame : sender = address
      · rw [if_pos hsame.symm, if_pos hsame, ← hsame, Nat.cast_sub hle]
      · rw [if_neg (Ne.symm hsame), if_neg hsame, sub_zero]

theorem holding_credit : (s.credit recipient value).holding address
    = s.holding address + if recipient = address then (value : Int) else 0 := by
  by_cases hto : recipient = zeroEvmAddress
  · by_cases haddress : address = zeroEvmAddress
    · simp only [credit, hto, haddress, holding, if_true]
      push_cast
      ring
    · have hne : zeroEvmAddress ≠ address := Ne.symm haddress
      simp [credit, hto, haddress, hne, holding, balance]
  · rw [credit, if_neg hto]
    by_cases haddress : address = zeroEvmAddress
    · have hne : recipient ≠ address := haddress ▸ hto
      simp [holding, haddress, haddress ▸ hne]
    · rw [holding_nonzero haddress, holding_nonzero haddress, balance_set]
      by_cases hsame : recipient = address
      · rw [if_pos hsame.symm, if_pos hsame, ← hsame, Nat.cast_add]
      · rw [if_neg (Ne.symm hsame), if_neg hsame, add_zero]

theorem surplus_debited (hcovered : sender ≠ zeroEvmAddress → (value : Int) ≤ s.holding sender) :
    (s.debited sender value).surplus = s.surplus - value := by
  by_cases hsender : sender = zeroEvmAddress
  · rw [debited, if_pos hsender, surplus, surplus]
    push_cast
    ring
  · have hle : value ≤ s.balance sender := by
      have h := hcovered hsender
      rw [holding_nonzero hsender] at h
      exact_mod_cast h
    have hsum := s.balances.sum_set sender (s.balance sender - value)
    rw [← balance] at hsum
    rw [debited, if_neg hsender, surplus, surplus]
    show (((s.balances.set sender (s.balance sender - value)).values.sum : Nat) : Int)
      + s.burnedTotal - s.mintedTotal = _
    omega

theorem surplus_credit : (s.credit recipient value).surplus = s.surplus + value := by
  by_cases hto : recipient = zeroEvmAddress
  · rw [credit, if_pos hto, surplus, surplus]
    push_cast
    ring
  · have hsum := s.balances.sum_set recipient (s.balance recipient + value)
    rw [← balance] at hsum
    rw [credit, if_neg hto, surplus, surplus]
    show (((s.balances.set recipient (s.balance recipient + value)).values.sum : Nat) : Int)
      + s.burnedTotal - s.mintedTotal = _
    omega

theorem debited_zero (h : s.balances.find zeroEvmAddress = none) :
    (s.debited sender value).balances.find zeroEvmAddress = none := by
  by_cases hsender : sender = zeroEvmAddress
  · rw [debited, if_pos hsender]
    exact h
  · rw [debited, if_neg hsender]
    show (s.balances.set sender _).find zeroEvmAddress = none
    rw [Record.find_set, if_neg (Ne.symm hsender), h]

theorem credit_zero (h : s.balances.find zeroEvmAddress = none) :
    (s.credit recipient value).balances.find zeroEvmAddress = none := by
  by_cases hto : recipient = zeroEvmAddress
  · rw [credit, if_pos hto]
    exact h
  · rw [credit, if_neg hto]
    show (s.balances.set recipient _).find zeroEvmAddress = none
    rw [Record.find_set, if_neg (Ne.symm hto), h]

end FoldState

/-- The state of the fold after these logs. -/
structure Folds (logs : List TransferLog) (s : FoldState) : Prop where
  start : logs = [] → s.previousBlock = -1
  last : ∀ last ∈ logs.getLast?, s.previousBlock = textNat last.blockNumber ∧
    s.previousLogIndex = textNat last.logIndex
  holding : ∀ address, s.holding address = net (transfers logs) address
  outside : s.balances.find zeroEvmAddress = none
  balanced : s.surplus = 0

theorem folds_nil : Folds [] {} where
  start := fun _ => rfl
  last := by simp
  holding := by
    intro address
    simp [FoldState.holding, FoldState.balance, transfers]
  outside := rfl
  balanced := rfl

/-- The order that the fold checks is the order of the chain. -/
theorem Folds.later_iff {logs : List TransferLog} {s : FoldState} (h : Folds logs s)
    (log : TransferLog) :
    ¬ ((textNat log.blockNumber : Int) < s.previousBlock ∨
        ((textNat log.blockNumber : Int) = s.previousBlock ∧
          (textNat log.logIndex : Int) ≤ s.previousLogIndex)) ↔
      ∀ last ∈ logs.getLast?, last.position < log.position := by
  cases hlogs : logs.getLast? with
  | none =>
    have hprevious := h.start (List.getLast?_eq_none_iff.mp hlogs)
    refine iff_of_true ?_ (by simp)
    omega
  | some last =>
    obtain ⟨hblock, hindex⟩ := h.last last hlogs
    simp only [Option.mem_def, Option.some.injEq, forall_eq', TransferLog.position,
      Prod.Lex.toLex_lt_toLex]
    omega

/-- The state after a log that fits. -/
def FoldState.after (s : FoldState) (log : TransferLog) : FoldState :=
  let seen := s.advance (textNat log.blockNumber) (textNat log.logIndex)
  if textNat log.value = 0 then seen
  else (seen.debited log.sender (textNat log.value)).credit log.recipient (textNat log.value)

/-- The spec of a step of the fold. -/
theorem Folds.foldTransferLog_eq_ok {snapshotBlock : Nat} {logs : List TransferLog}
    {s t : FoldState} (h : Folds logs s) {log : TransferLog} :
    foldTransferLog snapshotBlock s log = .ok t ↔
      LogFits snapshotBlock logs log ∧ t = s.after log := by
  let seen := s.advance (textNat log.blockNumber) (textNat log.logIndex)
  have hmove : (if textNat log.value = 0 then pure seen
      else do
        let debited ← seen.debit ("holder snapshot transfer log " ++ toString s.position)
          log.sender (textNat log.value)
        pure (debited.credit log.recipient (textNat log.value)) : Except String FoldState) = .ok t ↔
      (log.sender ≠ zeroEvmAddress → (textNat log.value : Int) ≤ net (transfers logs) log.sender) ∧
        t = s.after log := by
    rw [← h.holding log.sender]
    by_cases hvalue : textNat log.value = 0
    · -- an address other than zero never holds less than nothing
      have hcovered : log.sender ≠ zeroEvmAddress →
          (textNat log.value : Int) ≤ s.holding log.sender := by
        intro hsender
        rw [hvalue, FoldState.holding_nonzero hsender]
        exact Int.natCast_nonneg _
      rw [if_pos hvalue, FoldState.after, if_pos hvalue, pure_eq_ok]
      exact ⟨fun heq => ⟨hcovered, heq.symm⟩, fun hboth => hboth.2.symm⟩
    · rw [if_neg hvalue, FoldState.after, if_neg hvalue]
      simp only [bind_eq_ok, FoldState.debit_eq_ok, pure_eq_ok]
      constructor
      · rintro ⟨_, ⟨hcovered, rfl⟩, rfl⟩
        exact ⟨hcovered, rfl⟩
      · rintro ⟨hcovered, rfl⟩
        exact ⟨_, ⟨hcovered, rfl⟩, rfl⟩
  simp only [foldTransferLog, bind_eq_ok, assertDecimalString_eq_ok, assertAddress_eq_ok,
    revertIf_eq_ok, exists_const, h.later_iff, not_lt]
  rw [hmove]
  constructor
  · rintro ⟨hblock, hindex, hsender, hrecipient, hvalue, hnew, hlater, hcovered, ht⟩
    exact ⟨⟨⟨hblock, hindex, hsender, hrecipient, hvalue⟩, hnew, hlater, hcovered⟩, ht⟩
  · rintro ⟨⟨⟨hblock, hindex, hsender, hrecipient, hvalue⟩, hnew, hlater, hcovered⟩, ht⟩
    exact ⟨hblock, hindex, hsender, hrecipient, hvalue, hnew, hlater, hcovered, ht⟩

theorem Folds.after {logs : List TransferLog} {s : FoldState} (h : Folds logs s)
    {log : TransferLog} (hcovered : log.sender ≠ zeroEvmAddress →
      (textNat log.value : Int) ≤ net (transfers logs) log.sender) :
    Folds (logs ++ [log]) (s.after log) := by
  let seen := s.advance (textNat log.blockNumber) (textNat log.logIndex)
  have hseen : log.sender ≠ zeroEvmAddress → (textNat log.value : Int) ≤ seen.holding log.sender := by
    rw [← h.holding log.sender] at hcovered
    exact hcovered
  have hposition : (s.after log).previousBlock = textNat log.blockNumber ∧
      (s.after log).previousLogIndex = textNat log.logIndex := by
    unfold FoldState.after FoldState.credit FoldState.debited FoldState.advance
    dsimp only
    constructor
    · split <;> (try split) <;> (try split) <;> rfl
    · split <;> (try split) <;> (try split) <;> rfl
  refine ⟨by simp, ?_, ?_, ?_, ?_⟩
  · intro last hlast
    rw [List.getLast?_concat, Option.mem_def, Option.some.injEq] at hlast
    rw [← hlast]
    exact hposition
  · intro address
    rw [transfers_concat, net_concat, ← h.holding address, FoldState.after]
    by_cases hvalue : textNat log.value = 0
    · rw [if_pos hvalue]
      simp [TransferLog.transfer, hvalue]
      rfl
    · rw [if_neg hvalue, FoldState.holding_credit, FoldState.holding_debited hseen]
      rfl
  · rw [FoldState.after]
    by_cases hvalue : textNat log.value = 0
    · rw [if_pos hvalue]
      exact h.outside
    · rw [if_neg hvalue]
      exact FoldState.credit_zero (FoldState.debited_zero h.outside)
  · rw [FoldState.after]
    by_cases hvalue : textNat log.value = 0
    · rw [if_pos hvalue]
      exact h.balanced
    · rw [if_neg hvalue, FoldState.surplus_credit, FoldState.surplus_debited hseen]
      have hbalanced : seen.surplus = 0 := h.balanced
      omega

/-- The fold goes through the logs that are accepted, and no others. -/
theorem foldTransferLogs_spec (snapshotBlock : Text) (logs : List TransferLog) :
    ((∃ s, foldTransferLogs logs snapshotBlock = .ok s) ↔
        LogsAccepted (textNat snapshotBlock) logs) ∧
      ∀ s, foldTransferLogs logs snapshotBlock = .ok s → Folds logs s := by
  induction logs using List.reverseRecOn with
  | nil =>
    refine ⟨iff_of_true ⟨_, rfl⟩ (logsAccepted_nil _), ?_⟩
    intro s hs
    cases hs
    exact folds_nil
  | append_singleton logs log ih =>
    have hsplit : foldTransferLogs (logs ++ [log]) snapshotBlock
        = foldTransferLogs logs snapshotBlock >>= fun s =>
          foldTransferLog (textNat snapshotBlock) s log := by
      simp [foldTransferLogs]
    simp only [hsplit, bind_eq_ok, logsAccepted_concat, ← ih.1]
    constructor
    · constructor
      · rintro ⟨t, s, hs, ht⟩
        exact ⟨⟨s, hs⟩, ((ih.2 s hs).foldTransferLog_eq_ok.mp ht).1⟩
      · rintro ⟨⟨s, hs⟩, hfits⟩
        exact ⟨_, s, hs, (ih.2 s hs).foldTransferLog_eq_ok.mpr ⟨hfits, rfl⟩⟩
    · rintro t ⟨s, hs, ht⟩
      obtain ⟨hfits, rfl⟩ := (ih.2 s hs).foldTransferLog_eq_ok.mp ht
      exact (ih.2 s hs).after hfits.covered

end Hookemon.Runner.SnapshotIndexer
