/-
Fetching a schema: the introspection query, the headers it is sent with, and what an answer means.
-/
import TypedQuery.Http
import TypedQuery.Introspection
import TypedQuery.Json.Reader
import TypedQuery.Json.Printer

namespace TypedQuery.Introspection

/-- Why no schema was fetched. -/
inductive FetchError
  | transport
  | status (code : Nat)
  | refused (messages : List String)
  | missingSchema
  | invalidHeaderName (name : String)
  | invalidHeaderValue (name : String)
deriving DecidableEq, Repr

def FetchError.message : FetchError → String
  | transport => "HTTP request failed"
  | status code => "introspection endpoint returned HTTP " ++ Http.statusLine code
  | refused messages => "introspection query failed: " ++ "; ".intercalate messages
  | missingSchema => "no __schema in introspection response"
  | invalidHeaderName name => "invalid header " ++ name ++ ": invalid HTTP header name"
  | invalidHeaderValue name => "invalid header " ++ name ++ ": failed to parse header value"

/-- The lines of the query. -/
def queryLines : List String :=
  ["query IntrospectionQuery \x7b",
   "  __schema \x7b",
   "    queryType \x7b name \x7d",
   "    mutationType \x7b name \x7d",
   "    subscriptionType \x7b name \x7d",
   "    types \x7b",
   "      kind",
   "      name",
   "      description",
   "      fields(includeDeprecated: true) \x7b",
   "        name",
   "        description",
   "        args \x7b",
   "          name",
   "          description",
   "          type \x7b ...TypeRef \x7d",
   "          defaultValue",
   "        \x7d",
   "        type \x7b ...TypeRef \x7d",
   "        isDeprecated",
   "        deprecationReason",
   "      \x7d",
   "      inputFields \x7b",
   "        name",
   "        description",
   "        type \x7b ...TypeRef \x7d",
   "        defaultValue",
   "      \x7d",
   "      interfaces \x7b ...TypeRef \x7d",
   "      enumValues(includeDeprecated: true) \x7b",
   "        name",
   "        description",
   "        isDeprecated",
   "        deprecationReason",
   "      \x7d",
   "      possibleTypes \x7b ...TypeRef \x7d",
   "    \x7d",
   "  \x7d",
   "\x7d",
   "",
   "fragment TypeRef on __Type \x7b",
   "  kind",
   "  name",
   "  ofType \x7b",
   "    kind",
   "    name",
   "    ofType \x7b",
   "      kind",
   "      name",
   "      ofType \x7b",
   "        kind",
   "        name",
   "        ofType \x7b",
   "          kind",
   "          name",
   "          ofType \x7b",
   "            kind",
   "            name",
   "            ofType \x7b",
   "              kind",
   "              name",
   "            \x7d",
   "          \x7d",
   "        \x7d",
   "      \x7d",
   "    \x7d",
   "  \x7d",
   "\x7d"]

def operationName : String := "IntrospectionQuery"

/-- The text of the query, on lines of its own. -/
def query : String := "\n" ++ String.join (queryLines.map (· ++ "\n"))

/-- The body of the request. -/
def requestBody : String :=
  (Json.object [("operationName", .string operationName), ("query", .string query)]).compact

/-- The headers that are configured, without those of a name that is also given, and then those
that are given. -/
def effectiveHeaders (configured given : List (String × String)) : List (String × String) :=
  (configured.filter fun (name, _) => !given.any fun (other, _) => Http.sameName other name) ++ given

/-- The headers as they are sent: each name once, with its last value. -/
def headerMap (headers : List (String × String)) : Except FetchError (List (String × String)) :=
  headers.foldlM (fun map (name, value) =>
    if !Http.isHeaderName name then .error (.invalidHeaderName name)
    else if !Http.isHeaderValue value then .error (.invalidHeaderValue name)
    else .ok (Http.setHeader map name value)) []

/-- The request for the schema at `url`. Its content is JSON whatever the headers say. -/
def request (url : String) (headers : List (String × String)) : Except FetchError Http.Request := do
  let map ← headerMap headers
  .ok ⟨url, Http.setHeader map "content-type" "application/json", requestBody⟩

/-- How deep an answer may nest. -/
def answerDepth : Nat := 127

/-- The message of an error in an answer. -/
def errorMessage (j : Json) : String := (j.get "message").string?.getD "unknown error"

/-- The schema text of an answer. Without one, the request did not get through. -/
def interpret (answer : Option Http.Response) : Except FetchError String :=
  match answer with
  | none => .error .transport
  | some r =>
    if !Http.isSuccess r.status then .error (.status r.status)
    else
      match Json.parse? answerDepth r.body with
      | none => .error .transport
      | some j =>
        let errors := list j "errors"
        let schema := (j.get "data").get "__schema"
        if !errors.isEmpty then .error (.refused (errors.map errorMessage))
        else if schema.isNull then .error .missingSchema
        else .ok (toSdl schema)

end TypedQuery.Introspection
