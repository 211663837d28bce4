import WrapperGen.Config.Data
import WrapperGen.Config.Settings
/-!
# Understanding settings

Reads settings out of structured data. What is missing takes its default and what is unknown is
ignored; a value of the wrong kind makes the whole unreadable. A table may also be written as the
list of its values.
-/

namespace WrapperGen

namespace Config

/-- The values of the fields `names`, as far as they are given. -/
def fields? (names : List String) : Data → Option (List (Option Data))
  | .table entries => some (names.map (Data.lookup? entries))
  | .list elements =>
    if elements.length ≤ names.length then
      some (elements.map some ++ List.replicate (names.length - elements.length) none)
    else none
  | _ => none

/-- The decoded value, or the default if there is none. -/
def orDefault {α : Type} (decode : Data → Option α) (fallback : α) : Option Data → Option α
  | none => some fallback
  | some d => decode d

def decodeText : Data → Option String
  | .text s => some s
  | _ => none

def decodeTexts : Data → Option (List String)
  | .list elements => elements.mapM decodeText
  | _ => none

def filterNamed? : String → Option OperationFilter
  | "required" => some .required
  | "http-verb" => some .httpVerb
  | _ => none

def decodeFilter : Data → Option OperationFilter
  | .text s => filterNamed? s
  | .table [(s, .null)] => filterNamed? s
  | .table [(s, .table [])] => filterNamed? s
  | .table [(s, .list [])] => filterNamed? s
  | _ => none

def decodeGenerator (c : Config) (d : Data) : Option Config := do
  match ← fields? ["marker", "runtime_path", "unit_suffix"] d with
  | [marker, runtimePath, unitSuffix] =>
    return { c with
      marker := ← orDefault decodeText c.marker marker
      runtimePath := ← orDefault decodeText c.runtimePath runtimePath
      unitSuffix := ← orDefault decodeText c.unitSuffix unitSuffix }
  | _ => none

def decodeShapes (c : Config) (d : Data) : Option Config := do
  match ← fields? ["call_wrappers", "response_wrappers"] d with
  | [callWrappers, responseWrappers] =>
    return { c with
      callWrappers := ← orDefault decodeTexts c.callWrappers callWrappers
      responseWrappers := ← orDefault decodeTexts c.responseWrappers responseWrappers }
  | _ => none

def decodeOperations (c : Config) (d : Data) : Option Config := do
  match ← fields? ["filter", "http_verbs"] d with
  | [filter, httpVerbs] =>
    return { c with
      filter := ← orDefault decodeFilter c.filter filter
      httpVerbs := ← orDefault decodeTexts c.httpVerbs httpVerbs }
  | _ => none

def decodeSources (c : Config) (d : Data) : Option Config := do
  match ← fields? ["exclude"] d with
  | [exclude] => return { c with exclude := ← orDefault decodeTexts c.exclude exclude }
  | _ => none

/-- The settings that the data describe. -/
def decode (d : Data) : Option Config := do
  match ← fields? ["generator", "shapes", "operations", "sources"] d with
  | [generator, shapes, operations, sources] =>
    let c := default
    let c ← orDefault (decodeGenerator c) c generator
    let c ← orDefault (decodeShapes c) c shapes
    let c ← orDefault (decodeOperations c) c operations
    orDefault (decodeSources c) c sources
  | _ => none

end Config

end WrapperGen
