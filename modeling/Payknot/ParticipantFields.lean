import Payknot.Store

/-! `participant_fields.go`: normalising a checkout form, decoding a stored one and
checking submitted data against it. A stored schema is a jsonb document, so
decoding starts from a JSON value. -/
namespace Payknot
open GoText

def defaultParticipantForm : List ParticipantField := [⟨"name", true⟩, ⟨"email", true⟩]

def normalizeFieldName (value : String) : String :=
  " ".intercalate (fields (trimSpace value))

def canonicalFieldName (p : Platform) (value : String) : String :=
  toLower p.lowerRune (" ".intercalate (fields (trimSpace value)))

/-- The loop of `normalizeParticipantFields` with its `seen` set. -/
def keepFirstFields (p : Platform) : List ParticipantField → List String → List ParticipantField
  | [], _ => []
  | field :: rest, seen =>
      let name := normalizeFieldName field.fieldName
      if name = "" then keepFirstFields p rest seen
      else
        let canonical := canonicalFieldName p name
        if canonical ∈ seen then keepFirstFields p rest seen
        else ⟨name, field.required⟩ :: keepFirstFields p rest (canonical :: seen)

def normalizeParticipantFields (p : Platform) (fields : List ParticipantField) :
    List ParticipantField :=
  if fields.isEmpty then defaultParticipantForm
  else
    let out := keepFirstFields p fields []
    if out.isEmpty then defaultParticipantForm else out

def validateParticipantData (p : Platform) (fields : List ParticipantField) (data : Option Object) :
    Except String Unit :=
  match fields with
  | [] => .ok ()
  | field :: rest =>
      if !field.required then validateParticipantData p rest data
      else
        let value := trimSpace (sprint p.sprintFloat (lookupMap data field.fieldName))
        if value = "" ∨ value = "<nil>" then .error (field.fieldName ++ " is required")
        else validateParticipantData p rest data

/-- Member names of a struct match without case; neither name here has a letter
with a non-ASCII case variant. -/
def foldsTo (key name : String) : Bool := key.toList.map Char.toLower = name.toList

/-- `json.Unmarshal` of one object into a `ParticipantField`; `none` is a type error. -/
def decodeFieldMembers : Object → ParticipantField → Option ParticipantField
  | [], field => some field
  | (key, value) :: rest, field =>
      if foldsTo key "field_name" then
        match value with
        | .str text => decodeFieldMembers rest { field with fieldName := text }
        | .null => decodeFieldMembers rest field
        | _ => none
      else if foldsTo key "required" then
        match value with
        | .bool flag => decodeFieldMembers rest { field with required := flag }
        | .null => decodeFieldMembers rest field
        | _ => none
      else decodeFieldMembers rest field

def decodeField : Json → Option ParticipantField
  | .null => some ⟨"", false⟩
  | .obj members => decodeFieldMembers members ⟨"", false⟩
  | _ => none

def decodeDirect : Json → Option (List ParticipantField)
  | .null => some []
  | .arr items => items.mapM decodeField
  | _ => none

def decodeLegacyRow : Json → Option Object
  | .null => some []
  | .obj members => some members
  | _ => none

def decodeLegacy : Json → Option (List Object)
  | .null => some []
  | .arr items => items.mapM decodeLegacyRow
  | _ => none

def stringMember (row : Object) (key : String) : String :=
  match lookup row key with
  | .str text => text
  | _ => ""

def legacyField (row : Object) : ParticipantField :=
  let name := stringMember row "field_name"
  let name := if name = "" then stringMember row "id" else name
  let name := if name = "" then stringMember row "label" else name
  let required := match lookup row "required" with
    | .bool flag => flag
    | _ => false
  ⟨name, required⟩

def decodeLegacyForm (p : Platform) (raw : Json) : List ParticipantField :=
  match decodeLegacy raw with
  | some rows => normalizeParticipantFields p (rows.map legacyField)
  | none => defaultParticipantForm

def decodeParticipantFields (p : Platform) (raw : Json) : List ParticipantField :=
  match decodeDirect raw with
  | some direct =>
      let normalized := normalizeParticipantFields p direct
      if normalized.length > 0 then normalized else decodeLegacyForm p raw
  | none => decodeLegacyForm p raw

/-- Unmarshalling into the map {wallet: true, qr: true}: a member of another type
is stored as false, a document of another type leaves the map as it was. -/
def decodePaymentMethods : Json → PaymentMethods
  | .null => ⟨false, false⟩
  | .obj members =>
      let read (key : String) : Bool := match members.find? fun member => member.1 == key with
        | none => true
        | some (_, .bool flag) => flag
        | some _ => false
      ⟨read "wallet", read "qr"⟩
  | _ => ⟨true, true⟩

def encodeParticipantFields (fields : List ParticipantField) : Json :=
  .arr (fields.map fun field =>
    .obj [("required", .bool field.required), ("field_name", .str field.fieldName)])

def encodePaymentMethods (methods : PaymentMethods) : Json :=
  .obj [("qr", .bool methods.qr), ("wallet", .bool methods.wallet)]

end Payknot
