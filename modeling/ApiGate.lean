import ApiGate.Judge.Session
import ApiGate.Main
import ApiGate.Proofs.Batches
import ApiGate.Proofs.Blocks
import ApiGate.Proofs.Canonical
import ApiGate.Proofs.CompactLines
import ApiGate.Proofs.Contents
import ApiGate.Proofs.Defects
import ApiGate.Proofs.Extension
import ApiGate.Proofs.Faults
import ApiGate.Proofs.Guarantees
import ApiGate.Proofs.Histories
import ApiGate.Proofs.Normalizing
import ApiGate.Proofs.Notations
import ApiGate.Proofs.Regrouping
import ApiGate.Proofs.Rendering
import ApiGate.Proofs.Rows
import ApiGate.Proofs.Sifting
import ApiGate.Proofs.Ties
import ApiGate.Proofs.Verdict
import ApiGate.Proofs.Views
