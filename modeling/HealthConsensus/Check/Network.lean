import HealthConsensus.Check.Basic
import HealthConsensus.Settings.Basic
import HealthConsensus.Web.Url

namespace HealthConsensus

inductive Connection where
  | made
  | refused (reason : String)
  | silent
deriving DecidableEq, Repr

inductive Exchange where
  | answered (status : Nat)
  | failed
  | silent
deriving DecidableEq, Repr

structure Network where
  connect : String → Connection × Duration
  fetch : Url → Exchange × Duration

namespace Target

def pageText (t : Target) : String :=
  t.scheme ++ "://" ++ t.hostPort ++ if startsWith "/" t.path then t.path else "/" ++ t.path

def checkConnection (net : Network) (t : Target) : Verdict :=
  match net.connect t.hostPort with
  | (.made, time) => .good time
  | (.refused reason, time) => .bad time ("connect failed: " ++ reason)
  | (.silent, time) => .bad time "connect timed out"

def isSuccess (status : Nat) : Bool := 200 ≤ status && status < 300

def checkPage (net : Network) (t : Target) : Verdict :=
  match Url.ofText? t.pageText with
  | none => .bad .zero "request failed: builder error"
  | some url =>
    if !url.isWeb then .bad .zero ("request failed: builder error for url (" ++ url.text ++ ")")
    else
      match net.fetch url with
      | (.answered status, time) =>
        if isSuccess status then .good time
        else .bad time ("unexpected status " ++ toString status)
      | (.failed, time) =>
        .bad time ("request failed: error sending request for url (" ++ url.text ++ ")")
      | (.silent, time) => .bad time "request timed out"

def check (net : Network) (kind : CheckType) (t : Target) : Verdict :=
  match kind with
  | .tcp => t.checkConnection net
  | .http => t.checkPage net

end Target

namespace Network

def unreachable : String := "Network is unreachable (os error 101)"

def unassignable : String := "Cannot assign requested address (os error 99)"

def linkless : String := "Invalid argument (os error 22)"

def unknownName : String := "failed to lookup address information: Name or service not known"

def unansweredName : String :=
  "failed to lookup address information: Temporary failure in name resolution"

def isAskable (name : List Char) : Bool :=
  (splitOn '.' name).all fun label =>
    !label.isEmpty && label.length < 64 && label.head? != some '-'
      && label.all fun c => c.isAlphanum || c = '-' || c = '_'

def groupsRefusal (groups : List Nat) : String :=
  let first := groups.headD 0
  if groups.take 6 = [0, 0, 0, 0, 0, 0xFFFF] || 0xFF00 ≤ first then unreachable
  else if first / 64 = 0xFE80 / 64 then linkless
  else unassignable

def refusal (host : List Char) : String :=
  let bracketed? : Option (List Char) := match host, host.reverse with
    | '[' :: rest, ']' :: _ => some rest.dropLast
    | _, _ => none
  match bracketed?.bind Host.eight?, Host.four? host with
  | some (.eight groups), _ => groupsRefusal groups
  | _, some _ => unreachable
  | _, none =>
    if String.ofList host = "localhost" then unreachable
    else if isAskable host then unansweredName
    else unknownName

def hostOf (hostPort : String) : List Char :=
  ((hostPort.toList.reverse.dropWhile (· ≠ ':')).drop 1).reverse

def isolated : Network where
  connect hostPort := (.refused (refusal (hostOf hostPort)), .zero)
  fetch _ := (.failed, .zero)

end Network

end HealthConsensus
