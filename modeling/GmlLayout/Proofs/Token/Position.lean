import GmlLayout.Proofs.Token.Spelling

/-!
The tokens of a source stand one behind the other, so no two of them are the same.
-/

namespace GmlLayout

theorem Spells.ne_nil {kind : Kind} {text : List Char} (spells : Spells kind text) : text ≠ [] := by
  cases spells with
  | symbol mark => cases mark <;> decide
  | keyword word => cases word <;> decide
  | _ => exact List.cons_ne_nil _ _

def Token.Before (first second : Token) : Prop :=
  first.line < second.line ∨ first.line = second.line ∧ first.column < second.column

namespace Cursor

def AtOrBefore (cursor : Cursor) (token : Token) : Prop :=
  cursor.line < token.line ∨ cursor.line = token.line ∧ cursor.column ≤ token.column

def Behind (cursor : Cursor) (token : Token) : Prop :=
  token.line < cursor.line ∨ token.line = cursor.line ∧ token.column < cursor.column

theorem Behind.before {cursor : Cursor} {first second : Token} (behind : cursor.Behind first)
    (later : cursor.AtOrBefore second) : first.Before second := by
  unfold Behind at behind
  unfold AtOrBefore at later
  unfold Token.Before
  omega

theorem AtOrBefore.trans {cursor : Cursor} {first second : Token} (here : cursor.AtOrBefore first)
    (before : first.Before second) : cursor.AtOrBefore second := by
  unfold AtOrBefore at *
  unfold Token.Before at before
  omega

theorem advance_further (cursor : Cursor) (munch : Munch) (some : munch.text ≠ []) :
    cursor.line < (cursor.advance munch).line ∨
      cursor.line = (cursor.advance munch).line ∧ cursor.column < (cursor.advance munch).column := by
  by_cases broken : '\n' ∈ munch.text
  · have counted : 0 < munch.text.count '\n' := List.count_pos_iff.mpr broken
    exact .inl (Nat.lt_add_of_pos_right counted)
  · have none : munch.text.count '\n' = 0 := List.count_eq_zero.mpr broken
    have long : 0 < munch.text.length := List.length_pos_iff.mpr some
    refine .inr ⟨by simp [advance, none], ?_⟩
    simp only [advance, columnAfter, broken, if_false]
    omega

theorem next_between {cursor after : Cursor} {token : Token}
    (step : cursor.next = (some token, after)) : cursor.AtOrBefore token ∧ after.Behind token := by
  unfold next at step
  simp only at step
  split at step
  · cases step
  · rename_i first source rest
    cases step
    have stops := List.head?_dropWhile_not Munch.isGap cursor.rest
    rw [show cursor.rest.dropWhile Munch.isGap = first :: source from rest] at stops
    have further := advance_further cursor.skipGap _ (Munch.read_spells source stops).ne_nil
    refine ⟨.inr ⟨rfl, ?_⟩, further⟩
    exact Nat.le_add_right _ _

theorem tokens_ordered (bound : Nat) (cursor : Cursor) :
    (∀ token ∈ cursor.tokens bound, cursor.AtOrBefore token) ∧
      (cursor.tokens bound).Pairwise Token.Before := by
  induction bound generalizing cursor with
  | zero => exact ⟨fun _ member => (nomatch member), .nil⟩
  | succ bound ih =>
    unfold tokens
    split
    · exact ⟨fun _ member => (nomatch member), .nil⟩
    · rename_i token after step
      obtain ⟨here, behind⟩ := next_between step
      obtain ⟨later, ordered⟩ := ih after
      have passed : ∀ other ∈ after.tokens bound, token.Before other :=
        fun other member => behind.before (later other member)
      refine ⟨?_, List.pairwise_cons.mpr ⟨passed, ordered⟩⟩
      intro other member
      obtain rfl | member := List.mem_cons.mp member
      · exact here
      · exact here.trans (passed other member)

end Cursor

theorem scan_nodup (source : String) : (scan source).Nodup := by
  apply (Cursor.tokens_ordered _ _).2.imp
  intro first second before same
  subst same
  unfold Token.Before at before
  omega

end GmlLayout
