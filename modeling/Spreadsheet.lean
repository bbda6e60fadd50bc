import Spreadsheet.Main
import Spreadsheet.Proofs.Formula.Expression
import Spreadsheet.Proofs.Formula.Grammar
import Spreadsheet.Proofs.Sheet.Recalculation
import Spreadsheet.Proofs.Workbook.Saving
import Spreadsheet.Proofs.Workbook.Circularity
import Spreadsheet.Proofs.Sheet.Locality
import Spreadsheet.Proofs.Workbook.Refusal
import Spreadsheet.Proofs.Sheet.Reloading
import Spreadsheet.Proofs.Workbook.Arising
import Spreadsheet.Proofs.Workbook.AdHoc
import Spreadsheet.Proofs.Sheet.Inlining
import Spreadsheet.Proofs.Workbook.Finiteness
import Spreadsheet.Proofs.Formula.Words
import Spreadsheet.Proofs.Number.Unsigned
import Spreadsheet.Proofs.Formula.Denoting
import Spreadsheet.Proofs.Formula.Spelling
import Spreadsheet.Proofs.Formula.Rendering
import Spreadsheet.Proofs.Sheet.Naming
import Spreadsheet.Proofs.Formula.Joining
import Spreadsheet.Proofs.Sheet.Verdict
import Spreadsheet.Proofs.Workbook.Unsaved
import Spreadsheet.Proofs.Cell.EditText
import Spreadsheet.Proofs.Sheet.Printing
import Spreadsheet.Proofs.CommandLine.Saving
import Spreadsheet.Proofs.Sheet.Nesting
import Spreadsheet.Proofs.Sheet.Concatenation
import Spreadsheet.Proofs.Workbook.ListedReferences
import Spreadsheet.Proofs.Formula.Accesses
import Spreadsheet.Proofs.Formula.Neighbours
import Spreadsheet.Proofs.Workbook.Handling
