import BehaviorTree.Log.Record

namespace BehaviorTree.Log

/-!
# Received records

Two questions to a list of records: which are errors, and whether any message holds some words.
-/

/-- Whether `part` stands somewhere in `whole`. -/
def occursIn (part : List Char) : List Char → Bool
  | [] => part.isEmpty
  | c :: cs => part.isPrefixOf (c :: cs) || occursIn part cs

/-- The errors among records. -/
def errors (rs : List Record) : List Record := rs.filter (·.level = .error)

/-- Whether the message of one of the records holds some words. -/
def mention (rs : List Record) (words : String) : Bool :=
  rs.any fun r => occursIn words.toList r.message.toList

theorem occursIn_iff_infix {part whole : List Char} :
    occursIn part whole = true ↔ part <:+: whole := by
  induction whole with
  | nil => simp [occursIn]
  | cons c cs ih => simp [occursIn, ih, List.infix_cons_iff]

end BehaviorTree.Log
