import Payknot.GoText
import Payknot.Interleaving

/-! The rate limiter of `ratelimit.go`: any number of server processes counting requests
in one Redis. A request reads the clock, increments the counter of its minute and, when
it is the first there, gives the counter a minute to live. Redis may refuse a command. -/
namespace Payknot.RateLimit
open GoText Interleaving Machine

/-- `net.SplitHostPort`: the host of an address that has a port. -/
def splitHostPort (hostport : List Char) : Option (List Char) :=
  match hostport.reverse.idxOf? ':' with
  | none => none
  | some fromEnd =>
      let i := hostport.length - 1 - fromEnd
      if hostport.head? = some '[' then
        match hostport.idxOf? ']' with
        | none => none
        | some close =>
            if close + 1 ≠ i then none
            else if (hostport.drop 1).contains '[' || (hostport.drop (close + 1)).contains ']' then none
            else some ((hostport.take close).drop 1)
      else
        let host := hostport.take i
        if host.contains ':' || (hostport.contains '[' || hostport.contains ']') then none
        else some host

def clientIP (remoteAddr : String) : String :=
  match splitHostPort remoteAddr.toList with
  | some (c :: host) => String.ofList (c :: host)
  | _ => remoteAddr

abbrev Instant := Nat

def secondLength : Instant := 1000000000

/-- `WindowSize`. -/
def windowSize : Instant := 60 * secondLength

def windowBucket (now : Instant) : Nat := now / secondLength / 60

def rateLimitPolicy (path : String) : String × Nat :=
  if hasPrefix path "/api/checkout/detect" then ("checkout_detect", 30)
  else if hasPrefix path "/api/checkout/recheck" then ("checkout_recheck", 12)
  else if hasPrefix path "/api/checkout/manual-verify" then ("checkout_manual_verify", 10)
  else ("default", 10)

/-- `fmt.Sprintf("ratelimit:%s:%s:%d", tag, ip, bucket)`. -/
def counterKey (tag ip : String) (bucket : Nat) : String :=
  "ratelimit:" ++ tag ++ ":" ++ ip ++ ":" ++ String.ofList (Nat.toDigits 10 bucket)

structure Request where
  path : String
  remoteAddr : String

def Request.tag (r : Request) : String := (rateLimitPolicy r.path).1

def Request.limit (r : Request) : Nat := (rateLimitPolicy r.path).2

def Request.ip (r : Request) : String := clientIP r.remoteAddr

inductive Op where
  | now
  | incr (key : String)
  | expire (key : String) (ttl : Instant)

/-- The reply of a command is `none` when Redis refused it. -/
abbrev Reply : Op → Type
  | .now => Instant
  | .incr _ => Option Nat
  | .expire _ _ => Option Unit

inductive Answer where
  | unavailable
  | tooMany
  /-- `next(w, r)`. -/
  | forwarded
  deriving DecidableEq

def rateLimit (r : Request) : Program Reply Answer := do
  let now : Instant ← Program.perform Op.now
  let key := counterKey r.tag r.ip (windowBucket now)
  let reply : Option Nat ← Program.perform (Op.incr key)
  match reply with
  | none => return .unavailable
  | some count =>
      if count = 1 then
        let _ ← Program.perform (Op.expire key windowSize)
      if count > r.limit then return .tooMany
      return .forwarded

section Execution

structure Counter where
  key : String
  count : Nat
  deadline : Option Instant

structure World where
  counters : List Counter
  now : Instant

def Counter.live (now : Instant) (counter : Counter) : Bool := counter.deadline.all fun deadline => now < deadline

def World.find (w : World) (key : String) : Option Counter :=
  w.counters.find? fun counter => counter.key = key && counter.live w.now

def World.store (w : World) (counter : Counter) : World :=
  { w with counters := counter :: w.counters.filter fun old => old.key ≠ counter.key }

def exec (refused : Bool) : (op : Op) → World → Option (Reply op × World)
  | .now, w => some (w.now, w)
  | .incr key, w =>
      if refused then some (none, w)
      else
        match w.find key with
        | none => some (some 1, w.store ⟨key, 1, none⟩)
        | some counter =>
            some (some (counter.count + 1), w.store { counter with count := counter.count + 1 })
  | .expire key ttl, w =>
      if refused then some (none, w)
      else
        match w.find key with
        | none => some (some (), w)
        | some counter => some (some (), w.store { counter with deadline := some (w.now + ttl) })

def occur (elapsed : Nat) (w : World) : Option World := some { w with now := w.now + elapsed }

def machine : Machine Reply World Bool Nat Request Answer where
  exec := exec
  occur := occur
  handler := rateLimit

end Execution

abbrev Limiter := Config Reply World Request Answer
abbrev LimiterLabel := Label Bool Nat Request
abbrev LimiterThread := Thread Reply Request Answer

end Payknot.RateLimit
