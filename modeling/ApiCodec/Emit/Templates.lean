import ApiCodec.Emit.Template

set_option autoImplicit false

namespace ApiCodec.Emit

def at1 (name : String) : Place := ⟨name, []⟩

def at2 (name field : String) : Place := ⟨name, [field]⟩

def at3 (name field inner : String) : Place := ⟨name, [field, inner]⟩

def valueAt (name : String) : Piece := .value (at1 name)

def fieldAt (name field : String) : Piece := .value (at2 name field)

def innerAt (name field inner : String) : Piece := .value (at3 name field inner)

inductive DeclarationKind
  | constant
  | type
  | function
  deriving DecidableEq, Repr

/-- The first words of a statement. -/
def DeclarationKind.words (exported : Bool) : DeclarationKind → String
  | .constant => if exported then "export const " else "const "
  | .type => if exported then "export type " else "type "
  | .function => if exported then "export function " else "function "

/-- A statement of a module that declares a name. -/
structure Statement where
  /-- What stands before it. -/
  lead : List Piece := []
  exported : Bool := true
  kind : DeclarationKind
  name : List Piece
  /-- What follows the name, with the blank lines after the statement. -/
  rest : List Piece

namespace Statement

def pieces (s : Statement) : List Piece :=
  s.lead ++ .text (s.kind.words s.exported) :: (s.name ++ s.rest)

/-- Several statements, one after the other. -/
def all (statements : List Statement) : List Piece := statements.flatMap pieces

end Statement

def importLines : Piece :=
  .each "import" (at1 "imports")
    [.text "import \x7b ", fieldAt "import" "name", .text " \x7d from \"",
     fieldAt "import" "path", .text "\";\n"]

def propertyLines (list : String) : Piece :=
  .each "prop" (at1 list)
    [.text "  ", fieldAt "prop" "key", .text ": ", fieldAt "prop" "codec", .text ",\n"]

def typeOfCodec (name : Piece) (after : String) : Statement :=
  { kind := .type
    name := [name]
    rest := [.text " = t.TypeOf<typeof ", name, .text (">;\n" ++ after)] }

/-- A codec under a name of its own, and its type. -/
def aliasStatements : List Statement :=
  [{ kind := .constant
     name := [fieldAt "alias" "name"]
     rest := [.text " = ", fieldAt "alias" "codec", .text ";\n\n"] },
   typeOfCodec (fieldAt "alias" "name") "\n"]

/-- An object whose required and optional properties are declared apart. -/
def objectStatements : List Statement :=
  [{ lead := [.text "// required attributes\n"]
     exported := false
     kind := .constant
     name := [valueAt "name", .text "R"]
     rest := [.text " = t.interface(\x7b\n", propertyLines "required", .text "\x7d);\n\n"] },
   { lead := [.text "// optional attributes\n"]
     exported := false
     kind := .constant
     name := [valueAt "name", .text "O"]
     rest := [.text " = t.partial(\x7b\n", propertyLines "optional", .text "\x7d);\n\n"] },
   { kind := .constant
     name := [valueAt "name"]
     rest :=
       [.choose (.holds (at1 "strict"))
          [.text " = t.exact(t.intersection([", valueAt "name", .text "R, ", valueAt "name",
           .text "O]), \"", valueAt "name", .text "\");\n\n"]
          [.text " = t.intersection([", valueAt "name", .text "R, ", valueAt "name",
           .text "O], \"", valueAt "name", .text "\");\n\n"]] },
   typeOfCodec (valueAt "name") ""]

/-- A definition that refers to itself, so that its type has to be written out. -/
def recursiveStatements : List Statement :=
  [{ kind := .type
     name := [valueAt "name"]
     rest := [.text " = ", valueAt "ts_type", .text ";\n\n"] },
   { kind := .constant
     name := [valueAt "name"]
     rest :=
       [.text ": t.Type<", valueAt "name", .text "> = t.recursion(\"", valueAt "name",
        .text "\", () => ", valueAt "codec", .text ");\n"] }]

/-- Any other definition. -/
def plainStatements : List Statement :=
  [{ kind := .constant
     name := [valueAt "name"]
     rest := [.text " = ", valueAt "codec", .text ";\n\n"] },
   typeOfCodec (valueAt "name") ""]

/-- What the module of a definition begins with. -/
def definitionHead : List Piece :=
  [.text "/**\n * Do not edit this file, it is generated by oasgen.\n",
   .choose (.holds (at1 "description"))
     [.text " *\n * ", .comment (at1 "description"), .text "\n"] [],
   .text " */\n\nimport * as t from \"io-ts\";\n"]

/-- The codecs that a definition declares under names of their own. -/
def definitionAliases : Piece := .each "alias" (at1 "aliases") (Statement.all aliasStatements)

def definitionBody : Piece :=
  .choose (.equals (at1 "kind") "object") (Statement.all objectStatements)
    [.choose (.equals (at1 "kind") "recursive") (Statement.all recursiveStatements)
      (Statement.all plainStatements)]

def definitionTemplate : List Piece :=
  definitionHead ++ [importLines, .text "\n", definitionAliases, definitionBody]

/-- The summary of an operation and whether it is deprecated. -/
def operationComment : Piece :=
  .choose (.either (at2 "op" "summary") (at2 "op" "deprecated"))
    [.text "\n/**\n",
     .choose (.holds (at2 "op" "summary"))
       [.text " * ", .comment (at2 "op" "summary"), .text "\n"] [],
     .choose (.holds (at2 "op" "deprecated")) [.text " * @deprecated\n"] [],
     .text " */\n"]
    []

def requestTypeStatement : Statement :=
  { lead :=
      [.text "\n/****************************************************************\n * ",
       fieldAt "op" "operation_id", .text "\n */\n",
       operationComment,
       .text "\n// Request type definition\n"]
    kind := .type
    name := [fieldAt "op" "pascal", .text "T"]
    rest :=
      [.text " = r.I", fieldAt "op" "method_pascal", .text "ApiRequestType<\n  ",
       fieldAt "op" "params_type", .text ",\n  ", fieldAt "op" "headers_union", .text ",\n  ",
       fieldAt "op" "query_union", .text ",\n  ", fieldAt "op" "responses_union",
       .text "\n>;\n"] }

/-- The codecs of an operation's responses unless they are overridden. -/
def defaultResponsesStatement : Statement :=
  { lead := [.text "\n"]
    kind := .constant
    name := [fieldAt "op" "camel", .text "DefaultResponses"]
    rest :=
      [.text " = \x7b\n",
       .each "e" (at3 "op" "decoder" "entries")
         [.text "  ", fieldAt "e" "status", .text ": ", fieldAt "e" "default_codec",
          .text ",\n"],
       .text "\x7d;\n\n"] }

/-- The type of the codecs of an operation's responses. -/
def responsesTypeStatement : Statement :=
  { kind := .type
    name := [fieldAt "op" "pascal", .text "ResponsesT"]
    rest :=
      [.text "<", innerAt "op" "decoder" "generics_decl", .text "> = \x7b\n",
       .each "e" (at3 "op" "decoder" "entries")
         [.text "  ", fieldAt "e" "status", .text ": t.Type<", fieldAt "e" "a", .text ", ",
          fieldAt "e" "c", .text ">;\n"],
       .text "\x7d;\n\n"] }

/-- The decoder of an operation, which takes overrides. -/
def decoderStatement : Statement :=
  { kind := .function
    name := [fieldAt "op" "camel", .text "Decoder"]
    rest :=
      [.text "<", innerAt "op" "decoder" "generics_with_defaults",
       .text ">(\n  overrideTypes:\n    | Partial<", fieldAt "op" "pascal", .text "ResponsesT<",
       innerAt "op" "decoder" "generics", .text ">>\n    | t.Type<",
       innerAt "op" "decoder" "primary_a", .text ", ", innerAt "op" "decoder" "primary_c",
       .text ">\n    | undefined = \x7b\x7d\n): r.ResponseDecoder<",
       innerAt "op" "decoder" "result_union",
       .text "> \x7b\n  const isDecoder = (d: any): d is t.Type<",
       innerAt "op" "decoder" "primary_a", .text ", ", innerAt "op" "decoder" "primary_c",
       .text "> =>\n    typeof d[\"_A\"] !== \"undefined\";\n\n  const type = \x7b\n    ...((",
       fieldAt "op" "camel", .text "DefaultResponses as unknown) as ", fieldAt "op" "pascal",
       .text "ResponsesT<", innerAt "op" "decoder" "generics",
       .text ">),\n    ...(isDecoder(overrideTypes) ? \x7b ",
       innerAt "op" "decoder" "primary_status",
       .text ": overrideTypes \x7d : overrideTypes)\n  \x7d;\n\n",
       .each "e" (at3 "op" "decoder" "entries")
         [.text "  const d", fieldAt "e" "status", .text " = (", fieldAt "e" "decoder",
          .text ") as r.ResponseDecoder<r.IResponseType<", fieldAt "e" "status", .text ", ",
          fieldAt "e" "a", .text ", ", fieldAt "e" "headers", .text ">>;\n"],
       .text "\n  return ", innerAt "op" "decoder" "composed", .text ";\n\x7d\n\n"] }

/-- The decoder of an operation without overrides. -/
def defaultDecoderStatement : Statement :=
  { lead := [.text "// Decodes the declared responses with their default types\n"]
    kind := .constant
    name := [fieldAt "op" "camel", .text "DefaultDecoder"]
    rest := [.text " = () => ", fieldAt "op" "camel", .text "Decoder();\n"] }

/-- The decoder of an operation and what it is made of. -/
def decoderStatements : List Statement :=
  [defaultResponsesStatement, responsesTypeStatement, decoderStatement, defaultDecoderStatement]

def requestTypesHead : List Piece :=
  [.text "/**\n * Do not edit this file, it is generated by oasgen.\n */\n\n",
   .text "import * as t from \"io-ts\";\nimport * as r from \"", valueAt "requests_module",
   .text "\";\n"]

/-- The types of an operation and, if it has one, its decoder. -/
def operationPieces : List Piece :=
  requestTypeStatement.pieces ++
    [.choose (.holds (at2 "op" "decoder")) (Statement.all decoderStatements) []]

def requestTypesTemplate : List Piece :=
  requestTypesHead ++ [importLines, .each "op" (at1 "operations") operationPieces]

def clientOperation : List Piece :=
  [.text "\n  const ", fieldAt "op" "camel", .text "T: ", fieldAt "op" "pascal",
   .text "T = \x7b\n    method: \"", fieldAt "op" "method", .text "\",\n    headers: ",
   fieldAt "op" "headers", .text ",\n    response_decoder: ", fieldAt "op" "camel",
   .text "DefaultDecoder(),\n    url: ", fieldAt "op" "url", .text ",\n",
   .choose (.holds (at2 "op" "body")) [.text "    body: ", fieldAt "op" "body", .text ",\n"] [],
   .text "    query: ", fieldAt "op" "query", .text "\n  \x7d;\n  const ", fieldAt "op" "camel",
   .text ": TypeofApiCall<", fieldAt "op" "pascal", .text "T> = createFetchRequestForApi(",
   fieldAt "op" "camel", .text "T, options);\n"]

/-- What the module of the client begins with. -/
def clientHead : List Piece :=
  [.text "/**\n * Do not edit this file, it is generated by oasgen.\n */\n\n",
   .text "import \x7b createFetchRequestForApi, TypeofApiCall \x7d from \"",
   valueAt "requests_module",
   .text "\";\nimport \x7b withoutUndefinedValues \x7d from \"", valueAt "types_module",
   .text "\";\n"]

/-- The statements of the client: the path of requests unless another is given, what a client is
made of, what it does, and the function that makes it. -/
def clientStatements : List Statement :=
  [{ kind := .constant
     name := [.text "DEFAULT_BASE_PATH"]
     rest := [.text " = ", valueAt "base_path", .text ";\n\n"] },
   { kind := .type
     name := [.text "ClientOptions"]
     rest :=
       [.text " = \x7b\n  readonly baseUrl: string;\n  readonly fetchApi: typeof fetch;\n",
        .text "  readonly basePath?: string;\n\x7d;\n\n"] },
   { kind := .type
     name := [.text "Client"]
     rest :=
       [.text " = \x7b\n",
        .each "op" (at1 "operations")
          [.text "  readonly ", fieldAt "op" "camel", .text ": TypeofApiCall<",
           fieldAt "op" "pascal", .text "T>;\n"],
        .text "\x7d;\n\n"] },
   { kind := .function
     name := [.text "createClient"]
     rest :=
       [.text "(\x7b\n  baseUrl,\n  fetchApi,\n  basePath = DEFAULT_BASE_PATH\n",
        .text "\x7d: ClientOptions): Client \x7b\n  const options = \x7b baseUrl, fetchApi \x7d;\n",
        .each "op" (at1 "operations") clientOperation,
        .text "\n  return \x7b\n",
        .each "op" (at1 "operations") [.text "    ", fieldAt "op" "camel", .text ",\n"],
        .text "  \x7d;\n\x7d"] }]

/-- The import of request types and decoders. -/
def clientImportBlock : List Piece :=
  [.text "import \x7b\n",
   .each "name" (at1 "request_imports") [.text "  ", valueAt "name", .text ",\n"],
   .text "\x7d from \"./requestTypes\";\n\n"]

def clientTemplate : List Piece :=
  clientHead ++ clientImportBlock ++ Statement.all clientStatements

def templates : List (String × List Piece) :=
  [("definition.ts.j2", definitionTemplate), ("request_types.ts.j2", requestTypesTemplate),
   ("client.ts.j2", clientTemplate)]

/-- The text of a template with the fields of a value in its places. -/
def renderTemplate (name : String) (value : Json) : Option String := do
  let pieces ← Assoc.get? name templates
  match value with
  | .obj fields => renderAll fields pieces
  | _ => renderAll [] pieces

end ApiCodec.Emit
