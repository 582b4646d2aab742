import ApiCodec.Model.Operation
import ApiCodec.Options

set_option autoImplicit false

namespace ApiCodec

/-- How the body of a response is decoded. -/
inductive Strategy
  /-- A value of a type. -/
  | exact (type : String)
  /-- Bytes that are not looked into. -/
  | binary
  /-- No body. -/
  | constant
  /-- A value of the type of all errors. -/
  | errorEnvelope (type : String)
  deriving DecidableEq, Repr

def Strategy.type? : Strategy → Option String
  | .exact type => some type
  | .errorEnvelope type => some type
  | .binary => none
  | .constant => none

/-- The types of responses for which no definition is named. -/
structure DefaultTypes where
  success : String
  error : String
  deriving DecidableEq, Repr

def Options.defaultTypes (o : Options) : DefaultTypes :=
  ⟨o.defaultSuccessType, o.defaultErrorType⟩

/-- How the body of a response type is decoded. -/
def Strategy.ofType (defaults : DefaultTypes) : ResponseType → Strategy
  | .named name => .exact name
  | .binary => .binary
  | .defaultSuccess =>
      if defaults.success = absentType then .constant else .exact defaults.success
  | .defaultError =>
      if defaults.error = absentType then .constant else .errorEnvelope defaults.error

structure DecoderEntry where
  status : Nat
  strategy : Strategy
  /-- The names of the declared headers. -/
  headers : List String
  deriving DecidableEq, Repr

structure DecoderPlan where
  /-- The first status of success. -/
  primary : Nat
  /-- One for each numeric status, in declaration order. -/
  entries : List DecoderEntry
  deriving DecidableEq, Repr

/-- A caller's replacement for strategies of a plan. -/
inductive DecoderOverride
  /-- The strategy of the primary status. -/
  | single (strategy : Strategy)
  /-- The strategies of the statuses listed. -/
  | table (rows : List (Nat × Strategy))
  deriving DecidableEq, Repr

/-- Why a response is not decoded, or a plan not overridden. -/
inductive DecodeError
  | unknownStatus (status : Nat)
  | noMatch (status : Nat)
  deriving DecidableEq, Repr

def DecodeError.message : DecodeError → String
  | .unknownStatus status =>
      "override names status " ++ toString status ++ ", which the operation does not declare"
  | .noMatch status => "no response decoder matched status " ++ toString status

def isSuccess (status : Nat) : Bool := 200 ≤ status && status < 300

namespace DecoderEntry

def ofResponse? (defaults : DefaultTypes) (response : Response) : Option DecoderEntry :=
  response.code?.map fun status =>
    { status, strategy := Strategy.ofType defaults response.type, headers := response.headers }

/-- The entries of an operation's responses, in declaration order. -/
def ofOperation (defaults : DefaultTypes) (op : Operation) : List DecoderEntry :=
  op.responses.filterMap (ofResponse? defaults)

/-- Sets the strategy of a status; `none` if no entry has it. -/
def replace? (status : Nat) (strategy : Strategy) : List DecoderEntry → Option (List DecoderEntry)
  | [] => none
  | entry :: rest =>
      if entry.status = status then some ({ entry with strategy } :: rest)
      else (replace? status strategy rest).map (entry :: ·)

end DecoderEntry

namespace DecoderPlan

/-- The plan of an operation, if a response declares a status of success. -/
def ofOperation? (defaults : DefaultTypes) (op : Operation) : Option DecoderPlan :=
  ((op.responses.filterMap Response.code?).find? isSuccess).map fun primary =>
    { primary, entries := DecoderEntry.ofOperation defaults op }

def entry? (plan : DecoderPlan) (status : Nat) : Option DecoderEntry :=
  plan.entries.find? (·.status == status)

def primaryEntry? (plan : DecoderPlan) : Option DecoderEntry := plan.entry? plan.primary

def set (plan : DecoderPlan) (status : Nat) (strategy : Strategy) :
    Except DecodeError DecoderPlan :=
  match DecoderEntry.replace? status strategy plan.entries with
  | some entries => .ok { plan with entries }
  | none => .error (.unknownStatus status)

def setAll (plan : DecoderPlan) : List (Nat × Strategy) → Except DecodeError DecoderPlan
  | [] => .ok plan
  | (status, strategy) :: rest =>
      match plan.set status strategy with
      | .ok plan => plan.setAll rest
      | .error e => .error e

def override (plan : DecoderPlan) : DecoderOverride → Except DecodeError DecoderPlan
  | .single strategy => plan.set plan.primary strategy
  | .table rows => plan.setAll rows

end DecoderPlan

end ApiCodec
