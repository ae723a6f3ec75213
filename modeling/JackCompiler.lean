import JackCompiler.Compile
import JackCompiler.Forest
import JackCompiler.Main
import JackCompiler.Proofs.CommandLine.Modes
import JackCompiler.Proofs.Flow.Blocks
import JackCompiler.Proofs.Flow.Depth
import JackCompiler.Proofs.Flow.Returns
import JackCompiler.Proofs.Forest.Traversals
import JackCompiler.Proofs.Growth.Frame
import JackCompiler.Proofs.Growth.Readback
import JackCompiler.Proofs.Invariance.Names
import JackCompiler.Proofs.Invariance.Order
import JackCompiler.Proofs.Invariance.Widening
import JackCompiler.Proofs.Layout
import JackCompiler.Proofs.Listing.Reading
import JackCompiler.Proofs.Lowering.Consistency
import JackCompiler.Proofs.Meaning.Preservation
import JackCompiler.Proofs.Operands.Calls
import JackCompiler.Proofs.Operands.Cells
import JackCompiler.Proofs.Operands.Constants
import JackCompiler.Proofs.Operands.Counts
import JackCompiler.Proofs.Operands.Ordinals
import JackCompiler.Proofs.Operands.Spelling
import JackCompiler.Proofs.Operands.Targets
import JackCompiler.Proofs.Phrase.Language
import JackCompiler.Proofs.Phrase.Lossless
import JackCompiler.Proofs.Phrase.Nesting
import JackCompiler.Proofs.Phrase.Shape
import JackCompiler.Proofs.Phrase.Stopping
import JackCompiler.Proofs.Spacing
