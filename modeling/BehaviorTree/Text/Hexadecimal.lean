namespace BehaviorTree.Text

/-!
# Hexadecimal

Numbers in base sixteen: written in lower case and without leading zeros, read in either case.
-/

/-- One digit below sixteen, in lower case. -/
def hexDigit (n : Nat) : Char :=
  if n < 10 then Char.ofNat (0x30 + n) else Char.ofNat (0x57 + n)

/-- A number in lower-case hexadecimal, without leading zeros. -/
def hexadecimal (n : Nat) : List Char :=
  if n < 16 then [hexDigit n] else hexadecimal (n / 16) ++ [hexDigit (n % 16)]
termination_by n

/-- The value of a digit of a base up to sixteen. -/
def digitValue? (base : Nat) (c : Char) : Option Nat :=
  let value :=
    if c.isDigit then c.toNat - 0x30
    else if 'a' ≤ c ∧ c ≤ 'f' then c.toNat - 0x57
    else if 'A' ≤ c ∧ c ≤ 'F' then c.toNat - 0x37
    else base
  if value < base then some value else none

/-- The number that at least one digit of a base writes. -/
def ofDigits? (base : Nat) : List Char → Option Nat
  | [] => none
  | cs => (cs.mapM (digitValue? base)).map (·.foldl (fun n d => base * n + d) 0)

theorem digitValue?_hexDigit : ∀ n < 16, digitValue? 16 (hexDigit n) = some n := by decide

end BehaviorTree.Text
