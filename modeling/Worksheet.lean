import Worksheet.Main
import Worksheet.Session
import Worksheet.Proofs.TreeEvaluation
import Worksheet.Proofs.EditEffects
import Worksheet.Proofs.SheetStorage
import Worksheet.Proofs.WalkAnswers
import Worksheet.Proofs.FormulaGrammar
import Worksheet.Proofs.DocumentReplay
import Worksheet.Proofs.SheetTwins
import Worksheet.Proofs.CommandArguments
import Worksheet.Proofs.CommandRuns
import Worksheet.Proofs.SheetRecovery
import Worksheet.Proofs.StorableContents
import Worksheet.Proofs.WalkRecursion
import Worksheet.Proofs.WalkMoves
import Worksheet.Proofs.FormulaInlining
import Worksheet.Proofs.ParenthesisFaults
import Worksheet.Proofs.JoinedTexts
import Worksheet.Proofs.WhiteSpace
import Worksheet.Proofs.FormulaCase
import Worksheet.Proofs.CellReentry
import Worksheet.Proofs.NumberEntries
import Worksheet.Proofs.VariableNames
import Worksheet.Proofs.StackDiscipline
import Worksheet.Proofs.ErrorKinds
import Worksheet.Proofs.StandaloneEvaluation
