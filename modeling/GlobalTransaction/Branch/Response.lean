import GlobalTransaction.Branch.Status
import GlobalTransaction.Identity.Transaction

/-!
# Responses to branch requests

What a resource manager answers: a flag with an optional message, and for the end of
a branch also the branch and its status.

In a JSON text the members of the envelope stand beside those of the answer itself.
A reader cannot tell them from unknown members until it has seen all, so it keeps
their values aside; a value that cannot be kept is refused even under a name that
nobody asks for.

## Main definitions

* `Branch.ResultCode` — the flag
* `Branch.Envelope` — the flag with a message
* `Branch.EndResponse` — the answer to the end of a branch
* `Branch.EndResponse.text` — its form for people
* `Branch.Envelope.asEnvelope`, `Branch.EndResponse.asEndResponse` — their readings
-/

namespace GlobalTransaction.Branch

/-- Whether a request was carried out. -/
inductive ResultCode
  | failed
  | success
deriving DecidableEq

namespace ResultCode

instance : Inhabited ResultCode := ⟨.success⟩

/-- All flags. -/
def all : List ResultCode := [.failed, .success]

/-- The text of a flag, which is also its name in JSON texts. -/
def text : ResultCode → String
  | .failed => "Failed"
  | .success => "Success"

/-- The names of the flags in JSON texts. -/
def variants : List (String × ResultCode) := all.map fun c => (c.text, c)

/-- A flag as a JSON value. -/
def toJson (c : ResultCode) : Json := .ofText c.text

/-- The flag that a JSON value denotes. -/
def asResultCode : Json.Decoder ResultCode := Json.asVariant variants

/-- The flag that a value denotes after it was kept aside: an object without members is then as
good a payload as `null`. -/
def asKeptResultCode : Json.Decoder ResultCode := Json.asVariantWith Json.isVoid variants

end ResultCode

/-- The part that all responses share. -/
structure Envelope where
  resultCode : ResultCode
  msg : Option String
deriving DecidableEq

namespace Envelope

/-- The envelope of a request that was carried out. -/
def success : Envelope := ⟨.success, none⟩

/-- The envelope of a request that was not carried out. -/
def failed (msg : String) : Envelope := ⟨.failed, some msg⟩

instance : Inhabited Envelope := ⟨success⟩

/-- The members of an envelope. -/
def fields (e : Envelope) : List (String × Json) :=
  [("resultCode", e.resultCode.toJson), ("msg", .ofText? e.msg)]

/-- An envelope as a JSON value. -/
def toJson (e : Envelope) : Json := .ofFields e.fields

/-- The envelope whose fields are these, with the given reading of the flag. -/
def ofRecord (asCode : Json.Decoder ResultCode) (r : Json.Record) : Except Mismatch Envelope := do
  let resultCode ← r.required "resultCode" asCode
  let msg ← r.optional "msg" Json.asText
  return { resultCode, msg }

/-- The fields of an envelope, with the given reading of the flag. -/
def fieldsWith (asCode : Json.Decoder ResultCode) : List Json.Field :=
  [Json.field "resultCode" asCode, Json.field "msg" (Json.asOptional Json.asText)]

/-- The envelope that a JSON value denotes. -/
def asEnvelope : Json.Decoder Envelope := fun j => do
  let r ← Json.asRecord "a response" (fieldsWith ResultCode.asResultCode) j
  ofRecord ResultCode.asResultCode r

end Envelope

/-- The answer to a request to commit or to roll back a branch. -/
structure EndResponse where
  envelope : Envelope
  xid : Xid
  branchId : BranchId
  branchStatus : Status
deriving DecidableEq

namespace EndResponse

/-- The answer that a branch has reached a status. -/
def reached (xid : Xid) (branchId : BranchId) (branchStatus : Status) : EndResponse :=
  { envelope := .success, xid, branchId, branchStatus }

/-- The answer that a request failed; the status is what is known of the branch. -/
def failed (xid : Xid) (branchId : BranchId) (branchStatus : Status) (msg : String) :
    EndResponse :=
  { envelope := .failed msg, xid, branchId, branchStatus }

/-- The form of an answer for people. -/
def text (r : EndResponse) : String :=
  "BranchEndResponse\x7bxid='" ++ r.xid.text ++ "', branchId=" ++ r.branchId.text
    ++ ", branchStatus=" ++ r.branchStatus.text ++ ", resultCode=" ++ r.envelope.resultCode.text
    ++ ", msg='" ++ r.envelope.msg.getD "null" ++ "'\x7d"

/-- An answer as a JSON value, the members of the envelope first. -/
def toJson (r : EndResponse) : Json :=
  .ofFields (r.envelope.fields ++
    [("xid", r.xid.toJson), ("branchId", r.branchId.toJson),
      ("branchStatus", r.branchStatus.toJson)])

/-- The fields of an answer beside those of its envelope. -/
def ownFields : List Json.Field :=
  [Json.field "xid" Xid.asXid, Json.field "branchId" BranchId.asBranchId,
    Json.field "branchStatus" Status.asStatus]

/-- The members that do not belong to the answer itself, if all of them can be kept aside. -/
def keptMembers (members : List (Literal × Json)) : Except Mismatch (List (Literal × Json)) :=
  let kept := members.filter fun m => !(ownFields.any fun f => Literal.text f.name = m.1)
  if kept.all fun m => m.2.isStorable then .ok kept
  else .error (.wrongValue .null "a value that can be kept aside")

/-- The answer that a JSON value denotes: an object with the members of both parts in any order. -/
def asEndResponse : Json.Decoder EndResponse
  | .object members => do
    let own ← Json.knownMembers ownFields members
    let kept ← keptMembers members
    let r ← Json.knownMembers (Envelope.fieldsWith ResultCode.asKeptResultCode) kept
    let xid ← own.required "xid" Xid.asXid
    let branchId ← own.required "branchId" BranchId.asBranchId
    let branchStatus ← own.required "branchStatus" Status.asStatus
    let envelope ← Envelope.ofRecord ResultCode.asKeptResultCode r
    return { envelope, xid, branchId, branchStatus }
  | j => .error (.wrongType j "a response about the end of a branch")

end EndResponse

end GlobalTransaction.Branch
