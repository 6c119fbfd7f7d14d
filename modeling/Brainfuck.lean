import Brainfuck.Main
import Brainfuck.Proofs.Canonical
import Brainfuck.Proofs.Enlargement
import Brainfuck.Proofs.Folding
import Brainfuck.Proofs.Limit
import Brainfuck.Proofs.Progress
import Brainfuck.Proofs.Resolution
import Brainfuck.Proofs.Resumption
import Brainfuck.Proofs.Safety
import Brainfuck.Proofs.Simulation
import Brainfuck.Proofs.Structured
import Brainfuck.Proofs.Unread
import Brainfuck.Proofs.Decoding
import Brainfuck.Proofs.Likeness
import Brainfuck.Proofs.Noise
import Brainfuck.Proofs.Reporting
import Brainfuck.Proofs.Context
import Brainfuck.Proofs.Takeover
import Brainfuck.Proofs.Gaps
import Brainfuck.Proofs.Concatenation
import Brainfuck.Proofs.Guards
import Brainfuck.Proofs.Transfer
import Brainfuck.Proofs.Actions
import Brainfuck.Proofs.Freshness
import Brainfuck.Proofs.Succession
