import ApiCodec.Shape.Record
import ApiCodec.Text.Segments

set_option autoImplicit false

namespace ApiCodec.Document

open Shape

structure ServerVariable where
  default : String
  description : Option String
  values : List String

structure Server where
  url : String
  description : Option String
  slots : List (String × ServerVariable)

namespace ServerVariable

def read (value : Json) : Result ServerVariable := do
  let r ← record "ServerVariable" ["default", "description", "enum"] value
  r.finish <| ServerVariable.mk
    <$> r.required "default" (fun v _ => string v)
    <*> r.optionalString "description"
    <*> r.strings "enum"

def write (v : ServerVariable) : Json :=
  .obj
    (always "default" (.str v.default) ++
    givenString "description" v.description ++
    items "enum" (v.values.map .str))

end ServerVariable

/-- The part of a URL after scheme and host; a URL without scheme is all path. -/
def pathOfUrl : List Char → List Char
  | [] => []
  | c :: rest =>
      if [':', '/', '/'].isPrefixOf (c :: rest) then (rest.drop 2).dropWhile (· != '/')
      else pathOfUrl rest

namespace Server

def read (value : Json) : Result Server := do
  let r ← record "Server" ["url", "description", "variables"] value
  r.finish <| Server.mk
    <$> r.required "url" (fun v _ => string v)
    <*> r.optionalString "description"
    <*> r.map "variables" (fun v _ => ServerVariable.read v)

def write (s : Server) : Json :=
  .obj
    (always "url" (.str s.url) ++
    givenString "description" s.description ++
    entries "variables" (mapValues ServerVariable.write s.slots))

/-- The URL with each variable's default in place of its placeholder, one after the other. -/
def expandedUrl (s : Server) : List Char :=
  s.slots.foldl
    (fun url (name, v) =>
      Text.replaceChars (Text.placeholder name.toList) v.default.toList url)
    s.url.toList

/-- The path under which the server's operations lie, without a slash at its end. -/
def basePath? (s : Server) : Option String :=
  let url := s.expandedUrl
  let path := if Text.occurs [':', '/', '/'] url then pathOfUrl url else url
  match Text.trimEndChars '/' path with
  | [] => none
  | trimmed => some (String.ofList trimmed)

end Server

end ApiCodec.Document
