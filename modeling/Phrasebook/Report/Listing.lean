import Phrasebook.Diagnostic
import Phrasebook.Json.Basic

/-!
Diagnostics as JSON values, for the listings that the commands write.
-/

namespace Phrasebook

def Span.toJson (span : Span) : Json :=
  .object [("start", .ofNat span.start), ("end", .ofNat span.stop)]

def Severity.title : Severity → String
  | .warning => "Warning"
  | .error => "Error"
  | .fatal => "Fatal"

def Diagnostic.toJson (diagnostic : Diagnostic) : Json :=
  .object [
    ("severity", .string diagnostic.severity.title),
    ("kind", .string diagnostic.kind.name),
    ("context", .string diagnostic.context),
    ("message", .string diagnostic.message),
    ("cause", (diagnostic.cause.map Json.string).getD .null),
    ("span", (diagnostic.span.map Span.toJson).getD .null),
    ("depth", .ofNat diagnostic.depth)]

def Diagnostics.toJson (diagnostics : List Diagnostic) : Json :=
  .array (diagnostics.map Diagnostic.toJson)

end Phrasebook
