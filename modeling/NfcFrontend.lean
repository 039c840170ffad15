import NfcFrontend.Bench.Basic
import NfcFrontend.Traffic
import NfcFrontend.Proofs.Cut
import NfcFrontend.Proofs.FailStop
import NfcFrontend.Proofs.FaultPlan
import NfcFrontend.Proofs.Requests
import NfcFrontend.Proofs.Completion
import NfcFrontend.Proofs.ByteOutcome
import NfcFrontend.Proofs.PlainChip
import NfcFrontend.Proofs.Interpreter
import NfcFrontend.Proofs.BusHistory
import NfcFrontend.Proofs.Attempts
import NfcFrontend.Proofs.FifoPayload
import NfcFrontend.Proofs.RegisterMap
import NfcFrontend.Proofs.Transparency
import NfcFrontend.Proofs.SessionHistory
import NfcFrontend.Proofs.Capacity
import NfcFrontend.Proofs.Updates
import NfcFrontend.Proofs.Repeatable
import NfcFrontend.Proofs.Retry
import NfcFrontend.Proofs.Resend
import NfcFrontend.Proofs.Contracts
import NfcFrontend.Proofs.Restart
import NfcFrontend.Proofs.Refusals
import NfcFrontend.Proofs.Resynchronise
import NfcFrontend.Proofs.Turns
import NfcFrontend.Proofs.PatchMemory
import NfcFrontend.Proofs.FifoLength
import NfcFrontend.Proofs.FifoTransfer
import NfcFrontend.Proofs.PlannedMemory
import NfcFrontend.Proofs.RegisterChange
import NfcFrontend.Proofs.LastSetting
import NfcFrontend.Proofs.FifoModeChange
import NfcFrontend.Proofs.BusTransactions
import NfcFrontend.Proofs.AccessRecord
import NfcFrontend.Proofs.Polling
