import ByteMachine.Bench
import ByteMachine.Files.Tree
import ByteMachine.Main
import ByteMachine.Proofs.Collision
import ByteMachine.Proofs.Restriction
import ByteMachine.Proofs.Resumption
import ByteMachine.Proofs.Flags
import ByteMachine.Proofs.Faults
import ByteMachine.Proofs.Truncation
import ByteMachine.Proofs.Termination
import ByteMachine.Proofs.ImageGrammar
import ByteMachine.Proofs.InstructionTable
import ByteMachine.Proofs.FirstFault
import ByteMachine.Proofs.AccessOrder
import ByteMachine.Proofs.Interleaving
import ByteMachine.Proofs.ImageWriting
import ByteMachine.Proofs.StackDiscipline
import ByteMachine.Proofs.LifeCycle
import ByteMachine.Proofs.LastComparison
import ByteMachine.Proofs.TracedRun
import ByteMachine.Proofs.TraceOption
import ByteMachine.Proofs.BusCounts
import ByteMachine.Proofs.PushPop
import ByteMachine.Proofs.ImageEditing
import ByteMachine.Proofs.BusTrace
import ByteMachine.Proofs.TraceLine
import ByteMachine.Proofs.PrintedValues
import ByteMachine.Proofs.LogAccount
import ByteMachine.Proofs.CutRuns
import ByteMachine.Proofs.StoreHistory
import ByteMachine.Proofs.Evaluation
import ByteMachine.Proofs.Description
import ByteMachine.Proofs.Loading
