set_option autoImplicit false

namespace Egress

structure Duration where
  nanos : Nat
  deriving DecidableEq, Repr

namespace Duration

def ofSeconds (secs : Nat) : Duration := { nanos := secs * 1000000000 }

def ofMillis (millis : Nat) : Duration := { nanos := millis * 1000000 }

def make (secs nanos : Nat) : Duration := { nanos := secs * 1000000000 + nanos }

def wholeSeconds (d : Duration) : Nat := d.nanos / 1000000000

def restNanos (d : Duration) : Nat := d.nanos % 1000000000

def wholeMillis (d : Duration) : Nat := d.nanos / 1000000

def nonZero (d : Duration) : Option Duration := if d.nanos = 0 then none else some d

end Duration

structure Settings where
  maxStreamsPerSession : Nat := 10
  keepAlive : Duration := .ofSeconds 30
  defaultServerPort : Nat := 22
  addressPollInterval : Duration := .ofSeconds 5

namespace Settings

def sessionCap (s : Settings) : Nat := max s.maxStreamsPerSession 1

def keepAlive? (s : Settings) : Option Duration := s.keepAlive.nonZero

def pollInterval? (s : Settings) : Option Duration := s.addressPollInterval.nonZero

end Settings

end Egress
