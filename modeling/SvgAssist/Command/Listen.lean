import SvgAssist.Command.Value

/-!
# Addresses to listen on

An address is a host and a service with a colon between them; a host that has colons itself stands
in brackets. A service is given by its number.
-/

namespace SvgAssist.Command

inductive ListenError where
  | malformed (address : Text) (reason : String)
  | unknownService (service : Text)
  | unavailable (address : Text)
deriving DecidableEq, Repr

def ListenError.message : ListenError → Text
  | .malformed [] reason => utf8 "listen tcp: " ++ utf8 reason
  | .malformed address reason => utf8 "listen tcp: address " ++ address ++ utf8 ": " ++ utf8 reason
  | .unknownService service => utf8 "listen tcp: lookup tcp/" ++ service ++ utf8 ": unknown port"
  | .unavailable address => utf8 "listen tcp " ++ address ++ utf8 ": not available"

def openBracket : UInt8 := 0x5b

def closeBracket : UInt8 := 0x5d

def serviceOf (address : Text) : Except ListenError Text :=
  let fail (reason : String) : Except ListenError Text := .error (.malformed address reason)
  let service := (address.reverse.takeWhile (· ≠ Byte.colon)).reverse
  if service.length = address.length then fail "missing port in address"
  else
    let colon := address.length - service.length - 1
    let checked (opened closed : Nat) : Except ListenError Text :=
      if (address.drop opened).contains openBracket then fail "unexpected '[' in address"
      else if (address.drop closed).contains closeBracket then fail "unexpected ']' in address"
      else .ok service
    if address.head? = some openBracket then
      let stop := (address.takeWhile (· ≠ closeBracket)).length
      if stop = address.length then fail "missing ']' in address"
      else if stop + 1 = address.length then fail "missing port in address"
      else if stop + 1 = colon then checked 1 (stop + 1)
      else if address[stop + 1]? = some Byte.colon then fail "too many colons in address"
      else fail "missing port in address"
    else if (address.take colon).contains Byte.colon then fail "too many colons in address"
    else checked 0 0

def maxService : Nat := 65535

/-- What comes of listening on an address: a server that only talks over its input and output has
nothing to listen with. -/
def listen (address : Text) : ListenError :=
  match serviceOf address with
  | .error e => e
  | .ok service =>
    let negative := service.head? = some Byte.hyphen
    let digits := if negative || service.head? = some 0x2b then service.drop 1 else service
    if digits.all Byte.isDigit then
      let n := decimalValue digits
      if maxService < n || (negative && 0 < n) then .malformed service "invalid port"
      else .unavailable address
    else .unknownService service

end SvgAssist.Command
