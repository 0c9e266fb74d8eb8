import FormulaLang.Context
import FormulaLang.Json.Codec
import FormulaLang.Value.Equality
import FormulaLang.Proofs.Cache.Transparency
import FormulaLang.Proofs.Cache.Recency
import FormulaLang.Proofs.Typing.Overloads
import FormulaLang.Proofs.Typing.Declared
import FormulaLang.Proofs.Typing.Plans
import FormulaLang.Proofs.Compilation.Agreement
import FormulaLang.Proofs.Compilation.PartialApplication
import FormulaLang.Proofs.Compilation.Transparency
import FormulaLang.Proofs.Compilation.Folding
import FormulaLang.Proofs.Evaluation.Innermost
import FormulaLang.Proofs.Evaluation.Numbers
import FormulaLang.Proofs.Context.Agreement
import FormulaLang.Proofs.Context.Composition
import FormulaLang.Proofs.Context.Declarations
import FormulaLang.Proofs.Context.Inference
import FormulaLang.Proofs.Context.Later
import FormulaLang.Proofs.Context.Refusals
import FormulaLang.Proofs.Context.Session
import FormulaLang.Proofs.Context.StaticTypes
import FormulaLang.Proofs.Context.WellFormed
import FormulaLang.Proofs.Building.Invariant
import FormulaLang.Proofs.Printing.Display
import FormulaLang.Proofs.Reduction.Access
import FormulaLang.Proofs.Reduction.InPlace
import FormulaLang.Proofs.Tree.Copies
import FormulaLang.Proofs.Value.Equality
