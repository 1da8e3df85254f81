import SqlRender.Files.Tree
import SqlRender.Render
import SqlRender.Settings.Search
import SqlRender.Proofs.Draft
import SqlRender.Proofs.Occurrences
import SqlRender.Proofs.Binding
import SqlRender.Proofs.Nesting
import SqlRender.Proofs.Lexing
import SqlRender.Proofs.Tidiness
import SqlRender.Proofs.Quoting
import SqlRender.Proofs.Validity
import SqlRender.Proofs.Checks
import SqlRender.Proofs.Failures
import SqlRender.Proofs.Conflicts
import SqlRender.Proofs.OpenClauses
import SqlRender.Proofs.Placement
import SqlRender.Proofs.Subqueries
import SqlRender.Proofs.Emulation
import SqlRender.Proofs.Portability
import SqlRender.Proofs.Inlining
import SqlRender.Proofs.ReadingBack
import SqlRender.Proofs.Positions
import SqlRender.Proofs.Observers
import SqlRender.Proofs.Cosmetics
import SqlRender.Proofs.Invariants
import SqlRender.Proofs.Sharing
import SqlRender.Proofs.StatementSlots
import SqlRender.Proofs.Refusals
import SqlRender.Proofs.ErrorPlaces
import SqlRender.Proofs.Growth
import SqlRender.Proofs.TypedLiterals
import SqlRender.Proofs.Connectives
import SqlRender.Proofs.Omissions
import SqlRender.Proofs.Declarations
import SqlRender.Proofs.Parentheses
import SqlRender.Proofs.Unions
import SqlRender.Proofs.Delimiters
import SqlRender.Proofs.Directories
import SqlRender.Proofs.NearestFile
import SqlRender.Proofs.Vocabulary
