/-
  File:      IotWrap/Lib/Parcel.lean
  Subject:   Parcels and transactions: typed values read back in the order they
             were written.

  A parcel is the list of what was written and not yet read. A read takes the
  front value where it has the type asked for; past the end, and on a value of
  another type, it gives the type's default and takes nothing.

  A transaction hands a code and a parcel to a remote object, which answers
  with a status and a reply. The remote side is a function on a state `σ` of
  its own, so that what it did can be read off the state.

  * `checkInterface_token`: the interface test accepts exactly its own token.
-/
import IotWrap.Lib.CMem

namespace IotWrap.Lib

/-- A reference to a remote object; null is `none`. -/
abbrev StrongBinder := Option Nat

/-- One typed value of a parcel. -/
inductive Item where
  | token (descriptor : Bytes) : Item
  | string8 (s : Bytes) : Item
  | int32 (n : Int) : Item
  | strongBinder (b : StrongBinder) : Item
  deriving DecidableEq, Repr

abbrev Parcel := List Item

/-! ## 1. Statuses -/

abbrev Status := Int

def NO_ERROR : Status := 0
def PERMISSION_DENIED : Status := -1
def UNKNOWN_TRANSACTION : Status := -74

def FIRST_CALL_TRANSACTION : Nat := 1

/-- What a remote object does with a code and a parcel. -/
abbrev Transact (σ : Type) := Nat → Parcel → σ → (Status × Parcel) × σ

/-- `BBinder::onTransact`, on the codes of calls: it knows none. -/
def BBinder.onTransact {σ : Type} : Transact σ := fun _ _ s => ((UNKNOWN_TRANSACTION, []), s)

/-! ## 2. Writing and reading -/

namespace Parcel

def writeInterfaceToken (p : Parcel) (descriptor : Bytes) : Parcel := p ++ [.token descriptor]

def writeString8 (p : Parcel) (s : Bytes) : Parcel := p ++ [.string8 s]

def writeInt32 (p : Parcel) (n : Int) : Parcel := p ++ [.int32 n]

def writeStrongBinder (p : Parcel) (b : StrongBinder) : Parcel := p ++ [.strongBinder b]

/-- The interface test: the front is the token of the descriptor. The result is
    what is left to read. -/
def checkInterface (p : Parcel) (descriptor : Bytes) : Option Parcel :=
  match p with
  | .token d :: rest => if d = descriptor then some rest else none
  | _ => none

def readString8 : Parcel → Bytes × Parcel
  | .string8 s :: rest => (s, rest)
  | p => ([], p)

def readInt32 : Parcel → Int × Parcel
  | .int32 n :: rest => (n, rest)
  | p => (0, p)

def readStrongBinder : Parcel → StrongBinder × Parcel
  | .strongBinder b :: rest => (b, rest)
  | p => (none, p)

/-- **The interface test** rejects exactly a parcel with another token. -/
theorem checkInterface_token (d descriptor : Bytes) (p : Parcel) :
    Parcel.checkInterface (.token d :: p) descriptor = if d = descriptor then some p else none := rfl

end Parcel

end IotWrap.Lib
