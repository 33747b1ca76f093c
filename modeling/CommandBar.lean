import CommandBar.Proofs.Search.Commitment
import CommandBar.Proofs.Search.Concatenation
import CommandBar.Proofs.Search.Cursor
import CommandBar.Proofs.Search.Image
import CommandBar.Proofs.Search.Progress
import CommandBar.Proofs.Switch.Canonical
import CommandBar.Proofs.Switch.Diagnosis
import CommandBar.Proofs.Switch.Image
import CommandBar.Proofs.Switch.RoundTrip
import CommandBar.Quoted.Position
import CommandBar.Search.Grammar
import CommandBar.Search.Spelling
import CommandBar.Session
import CommandBar.Switch.Grammar
import CommandBar.Switch.Spelling
import CommandBar.Text.Position
import CommandBar.Proofs.Entry.Idempotence
import CommandBar.Proofs.Switch.Argument
import CommandBar.Proofs.Switch.Refusal
import CommandBar.Proofs.Entry.Capitals
import CommandBar.Proofs.Switch.Words
import CommandBar.Proofs.Search.Offset
