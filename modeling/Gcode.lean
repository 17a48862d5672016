import Gcode.Main
import Gcode.Pattern.Extent
import Gcode.Word.Order
import Gcode.Instruction.Tables
import Gcode.Proofs.Number.Nearest
import Gcode.Proofs.Number.Numeral
import Gcode.Proofs.Number.DecimalText
import Gcode.Proofs.Number.Fixed
import Gcode.Proofs.Number.Shortest
import Gcode.Proofs.Pattern.Form
import Gcode.Proofs.Pattern.LongestPrefix
import Gcode.Proofs.Pattern.Recognition
import Gcode.Proofs.LinuxCnc.Forms
import Gcode.Proofs.LinuxCnc.Patterns
import Gcode.Proofs.Pattern.Taker
import Gcode.Proofs.LinuxCnc.Numbers
import Gcode.Proofs.Letter
import Gcode.Proofs.LinuxCnc.Grammar
import Gcode.Proofs.LinuxCnc.Scanner
import Gcode.Proofs.Word.Lossless
import Gcode.Proofs.Number.Code
import Gcode.Proofs.LinuxCnc.Canonical
import Gcode.Proofs.LinuxCnc.Reread
import Gcode.Proofs.LinuxCnc.Block
import Gcode.Proofs.Comment
import Gcode.Proofs.LinuxCnc.Document
import Gcode.Proofs.Word.Equality
import Gcode.Proofs.Instruction.Conflict
import Gcode.Proofs.Block
import Gcode.Proofs.Document
import Gcode.Dialect.Calls
import Gcode.Proofs.Dialect.Calls
import Gcode.Proofs.Word.Construction
import Gcode.Proofs.LinuxCnc.Construction
import Gcode.Proofs.LinuxCnc.Reformat
import Gcode.Proofs.Word.Precision
import Gcode.Proofs.LinuxCnc.Precision
import Gcode.Proofs.Dialect.Loading
import Gcode.Proofs.CommandLine.Setup
import Gcode.Proofs.CommandLine.Report
import Gcode.Proofs.CommandLine.Outcome
import Gcode.Proofs.Dialect.Inheritance
import Gcode.Proofs.Instruction.Verify
import Gcode.Proofs.Number.Whole
import Gcode.Proofs.Word.ReadBack
import Gcode.Proofs.LinuxCnc.ReadBack
import Gcode.Proofs.LinuxCnc.Spacing
import Gcode.Proofs.Word.Agreement
import Gcode.Proofs.LinuxCnc.Joining
import Gcode.Proofs.Text.Respelling
import Gcode.Proofs.LinuxCnc.Respelling
import Gcode.Comment.Offsets
import Gcode.Proofs.Comment.Parts
import Gcode.HashTable
import Gcode.Proofs.HashTable
import Gcode.Proofs.Word.Order
import Gcode.Proofs.Block.Assembly
import Gcode.Proofs.Number.Tenths
import Gcode.Proofs.Instruction.ModalTable
import Gcode.Proofs.LinuxCnc.ModalGroups
import Gcode.Proofs.Number.WholeText
import Gcode.Proofs.Value.Coercion
import Gcode.Number.Stripped
import Gcode.Proofs.Number.FixedForm
import Gcode.Proofs.LinuxCnc.FixedText
import Gcode.Proofs.Number.CodeForm
import Gcode.Proofs.Number.IntegerText
import Gcode.Proofs.Word.Integers
import Gcode.Proofs.Dialect.Rules
import Gcode.Proofs.Dialect.Consistency
import Gcode.Proofs.Word.Consistency
import Gcode.Proofs.LinuxCnc.CodeText
