import RegisterMachine.CommandLine
import RegisterMachine.Machine
import RegisterMachine.Main
import RegisterMachine.Program
import RegisterMachine.Proofs.Agreement
import RegisterMachine.Proofs.CrashFreedom
import RegisterMachine.Proofs.WordArithmetic
import RegisterMachine.Session
import RegisterMachine.Proofs.Course
import RegisterMachine.Proofs.Order
import RegisterMachine.Proofs.Cut
import RegisterMachine.Proofs.Signature
import RegisterMachine.Proofs.Edit
import RegisterMachine.Proofs.Slice
import RegisterMachine.Proofs.BreakOff
import RegisterMachine.Proofs.History
import RegisterMachine.Proofs.OneLine
import RegisterMachine.Proofs.Headings
import RegisterMachine.Proofs.Static
import RegisterMachine.Proofs.Printout
import RegisterMachine.Proofs.Entry
import RegisterMachine.Proofs.Dialogue
import RegisterMachine.Proofs.Script
import RegisterMachine.Proofs.LineEnds
import RegisterMachine.Proofs.Typing
import RegisterMachine.Proofs.Decimal
import RegisterMachine.Proofs.Usable
import RegisterMachine.Proofs.Spelling
import RegisterMachine.Proofs.Fields
import RegisterMachine.Proofs.Restored
import RegisterMachine.Proofs.Listing
import RegisterMachine.Proofs.FileStore
import RegisterMachine.Proofs.Utf8
import RegisterMachine.Proofs.Arguments
import RegisterMachine.Proofs.Delivery
import RegisterMachine.Proofs.Refusal
import RegisterMachine.Proofs.ExitCodes
import RegisterMachine.Proofs.Footprint
import RegisterMachine.Proofs.Account
import RegisterMachine.Proofs.LogFile
import RegisterMachine.Proofs.Unanswered
import RegisterMachine.Proofs.TwosComplement
import RegisterMachine.Proofs.Operand
import RegisterMachine.Proofs.Escape
import RegisterMachine.Proofs.Recall
import RegisterMachine.Proofs.Unbounded
import RegisterMachine.Proofs.Scan
import RegisterMachine.Proofs.Parsing
import RegisterMachine.Proofs.TextWidth
import RegisterMachine.Proofs.Readout
import RegisterMachine.Proofs.Silence
