import M2Handler.Host
import M2Handler.Bstr.Bstring

/-!
# Requests

The request record and its parser.  The lengths `headerlen` and `bodylen` are
declared without an initial value, so their first contents are arguments.  A
null result stands for the jump to `error`.
-/

namespace M2Handler.Handler

open Machine Text Bstr

inductive Json where
  | null
  | boolean (value : Bool)
  | integer (value : Int)
  | real (text : Bytes)
  | string (value : Bytes)
  | array (items : List Json)
  | object (members : List (Bytes × Json))

structure Mongrel2Request where
  uuid : Option Bstring
  connId : Int32
  connIdBstr : Option Bstring
  path : Option Bstring
  rawHeaders : Option Bstring
  headers : Option Json
  body : Option Bstring

/-- `calloc(1, sizeof(mongrel2_request))`. -/
def Mongrel2Request.zero : Mongrel2Request where
  uuid := none
  connId := 0
  connIdBstr := none
  path := none
  rawHeaders := none
  headers := none
  body := none

def SPACE : Bstring := bsStatic [32] (by decide)

def COLON : Bstring := bsStatic [58] (by decide)

variable (host : Host)

/-- `sscanf(text, "%d", &variable)` on a variable that holds `initial`. -/
def sscanfInt (text : Bytes) (initial : Int32) : Int32 :=
  match scanInt (cString text) with
  | none => initial
  | some number => if IsInt number then Int32.ofInt number else host.scanOverflow number

/-- The search for a delimiter and the cut in front of it:
`end = binchr(raw, start, delimiter)` and `bmidstr(raw, start, end - start)`. -/
def cutField (raw : Option Bstring) (start : Int) (delimiter : Bstring) :
    Exec (Int × Option Bstring) := do
  let stop := binchr raw start delimiter
  let length ← arith host.trapv (stop - start)
  let text ← bmidstr host.trapv raw start length
  return (stop, text)

/-- The steps that the parser takes twice, for the headers and for the body:
the length up to the colon, then as many bytes as it says.  The result is the
end index and the bytes. -/
def cutNetstring (raw : Option Bstring) (start : Int) (initial : Int32) :
    Exec (Option (Int × Bstring)) := do
  let (colon, templen) ← cutField host raw start COLON
  let digits ← deref (bdata templen)
  let len := sscanfInt host digits initial
  let start ← arith host.trapv (colon + 1)
  let stop ← arith host.trapv (start + len.toInt)
  let count ← arith host.trapv (stop - start)
  let text ← bmidstr host.trapv raw start count
  match text with
  | none => return none
  | some text =>
      if text.slen ≠ len.toInt then return none
      else return some (stop, text)

def mongrel2ParseRequest (headerlen bodylen : Int32) (raw : Option Bstring) :
    Exec (Option Mongrel2Request) := do
  let req := Mongrel2Request.zero
  -- Extract the UUID
  let (euuid, uuid) ← cutField host raw 0 SPACE
  if uuid.isNone then return none
  else
    let req := { req with uuid := uuid }
    -- Extract the Connection ID
    let sconnid ← arith host.trapv (euuid + 1)
    let (econnid, connIdBstr) ← cutField host raw sconnid SPACE
    match connIdBstr with
    | none => return none
    | some connIdBstr =>
        let req := { req with
          connIdBstr := connIdBstr
          connId := sscanfInt host connIdBstr.data req.connId }
        -- Extract the Path
        let spath ← arith host.trapv (econnid + 1)
        let (epath, path) ← cutField host raw spath SPACE
        if path.isNone then return none
        else
          let req := { req with path := path }
          -- Extract the headers
          let sheader ← arith host.trapv (epath + 1)
          let headers ← cutNetstring host raw sheader headerlen
          match headers with
          | none => return none
          | some (eheader, rawHeaders) =>
              let req := { req with rawHeaders := some rawHeaders }
              -- Extract the body
              let sbody ← arith host.trapv (eheader + 1)
              let netstring ← cutNetstring host raw sbody bodylen
              match netstring with
              | none => return none
              | some (_, body) =>
                  return some { req with body := some body, headers := none }

end M2Handler.Handler
