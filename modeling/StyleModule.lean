import StyleModule.Main
import StyleModule.Proofs.Command.Agreement
import StyleModule.Proofs.Command.Resolution
import StyleModule.Proofs.Exports
import StyleModule.Proofs.Exports.Literal
import StyleModule.Proofs.Exports.Order
import StyleModule.Proofs.Extraction.Language
import StyleModule.Proofs.Extraction.Rereading
import StyleModule.Proofs.Generator.Determination
import StyleModule.Proofs.Generator.Literals
import StyleModule.Proofs.Script.Exports
import StyleModule.Proofs.Template.Registry
