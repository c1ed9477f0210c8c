import HttpFs.Foundation.Audit

/-! Things that a program takes and gives back, some of which rest on others. -/

namespace HttpFs

/-- How many of each thing are held. -/
def Ledger (Thing : Type) : Type := Thing → Nat

inductive LedgerEvent (Thing : Type) where
  | acquired (thing : Thing)
  | used (thing : Thing)
  | released (thing : Thing)
  deriving Repr, DecidableEq

namespace Ledger

variable {Thing : Type}

def empty : Ledger Thing := fun _ => 0

@[simp] theorem empty_apply {thing : Thing} : (empty : Ledger Thing) thing = 0 := rfl

variable [DecidableEq Thing]

def acquire (held : Ledger Thing) (thing : Thing) : Ledger Thing :=
  fun other => if other = thing then held other + 1 else held other

def release (held : Ledger Thing) (thing : Thing) : Ledger Thing :=
  fun other => if other = thing then held other - 1 else held other

def after (held : Ledger Thing) : LedgerEvent Thing → Ledger Thing
  | .acquired thing => held.acquire thing
  | .used _ => held
  | .released thing => held.release thing

variable {held : Ledger Thing} {thing other : Thing}

@[simp] theorem acquire_self : held.acquire thing thing = held thing + 1 := if_pos rfl

end Ledger

end HttpFs
