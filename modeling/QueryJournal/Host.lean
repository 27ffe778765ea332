import QueryJournal.Value.Error
import QueryJournal.Number.Rounding

/-!
# Hosts

The nodes that queries run on, and whatever else a query is said to have run
on.
-/

namespace QueryJournal

/-- A node that queries are sent to. -/
structure Host where
  /-- Its address. -/
  address : String
  /-- Its port. -/
  port : Int
  deriving DecidableEq

namespace Host

/-- The port of nodes for which none is given. -/
def defaultPort : Int :=
  9042

/-- Address and port; an address with a colon stands in brackets. -/
def text (h : Host) : String :=
  let address :=
    if ':' ∈ h.address.toList then "[" ++ h.address ++ "]" else h.address
  address ++ ":" ++ Number.text h.port

/-- A host as a constructor with its fields. -/
def literal (h : Host) : String :=
  "Host(address=" ++ Text.quoted h.address ++ ", port=" ++
  Number.text h.port ++ ")"

end Host

/-- What a query is said to have run on. -/
inductive Target where
  /-- A node. -/
  | host (h : Host)
  /-- Something described by a text. -/
  | text (s : String)
  /-- Nothing. -/
  | missing
  /-- An object that refuses to be printed. -/
  | unprintable (cls : FailureClass)

/-- The text of a target. -/
def Target.print : Target → Printed
  | .host h => .ok h.text
  | .text s => .ok s
  | .missing => .ok "None"
  | .unprintable cls => .error ⟨cls⟩

end QueryJournal
