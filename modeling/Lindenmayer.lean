import Lindenmayer.CommandLine.Run
import Lindenmayer.Main
import Lindenmayer.Proofs.Branch.Composition
import Lindenmayer.Proofs.Branch.Drawing
import Lindenmayer.Proofs.Branch.Materials
import Lindenmayer.Proofs.Branch.Path
import Lindenmayer.Proofs.Branch.Shielding
import Lindenmayer.Proofs.CommandLine.FalseAlarms
import Lindenmayer.Proofs.CommandLine.RandomScenes
import Lindenmayer.Proofs.CommandLine.Sampling
import Lindenmayer.Proofs.CommandLine.Saving
import Lindenmayer.Proofs.Grammar.Accounting
import Lindenmayer.Proofs.Grammar.Counting
import Lindenmayer.Proofs.Grammar.Idle
import Lindenmayer.Proofs.Sampling.Stem
import Lindenmayer.Proofs.Scene.Heading
import Lindenmayer.Proofs.Scene.LongKeys
import Lindenmayer.Proofs.Scene.Reading
import Lindenmayer.Proofs.Space.Norm
import Lindenmayer.Proofs.Token.Cuts
import Lindenmayer.Proofs.Token.Range
import Lindenmayer.Proofs.Token.Writing
import Lindenmayer.Proofs.Turtle.Aspects
import Lindenmayer.Proofs.Turtle.Bounds
import Lindenmayer.Proofs.Turtle.Connected
import Lindenmayer.Proofs.Turtle.Underflow
