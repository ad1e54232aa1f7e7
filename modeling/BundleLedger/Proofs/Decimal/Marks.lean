import BundleLedger.Json.Printer
import BundleLedger.Proofs.Decimal.Integers

/-!
# The characters of a number

However a number is written, whole or as a double, positionally or with an exponent, its text
consists of digits and the marks between them, and there is some text.

Results:

* `Style.write_marks` and `Style.write_ne_nil`: the text of a double.
* `Number.write_marks` and `Number.write_ne_nil`: the text of any number.
-/
namespace BundleLedger

namespace Decimal

/-- Whether a character may stand in the text of a number. -/
def isMark (c : Char) : Bool := c.isDigit || c == '.' || c == '-' || c == '+' || c == 'e'

/-- A text of digits and marks. -/
def Marks (text : List Char) : Prop := ∀ c ∈ text, isMark c = true

theorem Marks.append {a b : List Char} (ha : Marks a) (hb : Marks b) : Marks (a ++ b) :=
  fun c hc => (List.mem_append.1 hc).elim (ha c) (hb c)

theorem Marks.cons {c : Char} {text : List Char} (hc : isMark c = true) (h : Marks text) :
    Marks (c :: text) :=
  List.forall_mem_cons.2 ⟨hc, h⟩

theorem marks_nil : Marks [] := nofun

theorem marks_replicate_zero (n : Nat) : Marks (List.replicate n '0') := by
  intro c hc
  rw [List.eq_of_mem_replicate hc]
  decide

theorem marks_of_isDigit {text : List Char} (h : ∀ c ∈ text, c.isDigit = true) : Marks text :=
  fun c hc => by simp [isMark, h c hc]

theorem marks_digits {digits : List Nat} (h : ∀ d ∈ digits, d < 10) :
    Marks (digits.map digitChar) := by
  refine marks_of_isDigit fun c hc => ?_
  obtain ⟨d, hd, rfl⟩ := List.mem_map.1 hc
  exact digitChar_isDigit (h d hd)

theorem marks_natText (n : Nat) : Marks (natText n) := marks_of_isDigit (natText_isDigit n)

theorem digits_ofGrid_lt (n : Nat) (k : Int) : ∀ d ∈ (Digits.ofGrid n k).digits, d < 10 := by
  intro d hd
  have hmem : d ∈ digitsOf n := by
    have h := (List.dropWhile_sublist _).subset (List.mem_reverse.1 hd)
    exact List.mem_reverse.1 h
  rw [digitsOf_eq, List.mem_reverse] at hmem
  exact Nat.digits_lt_base (by decide) hmem

theorem digits_shortest_lt (d : Double) : ∀ n ∈ (shortest d).digits, n < 10 := by
  unfold shortest
  dsimp only
  split
  · rename_i digits hfound
    obtain ⟨k, -, hk⟩ := List.exists_of_findSome?_eq_some hfound
    obtain ⟨n, -, rfl⟩ := Option.map_eq_some_iff.1 hk
    exact digits_ofGrid_lt n k
  · exact digits_ofGrid_lt _ _

theorem positionalText_marks (keepsPoint : Bool) {d : Digits} (h : ∀ n ∈ d.digits, n < 10) :
    Marks (positionalText keepsPoint d) := by
  have hdigits := marks_digits h
  unfold positionalText
  dsimp only
  split
  · exact (((marks_replicate_zero _).cons (by decide)).cons (by decide)).append hdigits
  · split
    · refine (hdigits.append (marks_replicate_zero _)).append ?_
      split
      · exact (marks_nil.cons (by decide)).cons (by decide)
      · exact marks_nil
    · have htake : Marks ((d.digits.map digitChar).take d.point.toNat) :=
        fun c hc => hdigits c (List.mem_of_mem_take hc)
      have hdrop : Marks ((d.digits.map digitChar).drop d.point.toNat) :=
        fun c hc => hdigits c (List.mem_of_mem_drop hc)
      exact htake.append (hdrop.cons (by decide))

theorem positionalText_ne_nil (keepsPoint : Bool) (d : Digits) :
    positionalText keepsPoint d ≠ [] := by
  unfold positionalText
  dsimp only
  split
  · simp
  · split
    · -- without digits there are zeros, as many as the point says
      intro h
      simp only [List.append_eq_nil_iff, List.replicate_eq_nil_iff, List.map_eq_nil_iff] at h
      obtain ⟨⟨hdigits, hzeros⟩, -⟩ := h
      rw [hdigits] at hzeros
      simp at hzeros
      omega
    · simp

theorem scientificText_marks {d : Digits} (h : ∀ n ∈ d.digits, n < 10) :
    Marks (scientificText d) := by
  have hdigits := marks_digits h
  have htake : Marks ((d.digits.map digitChar).take 1) :=
    fun c hc => hdigits c (List.mem_of_mem_take hc)
  have hdrop : Marks ((d.digits.map digitChar).drop 1) :=
    fun c hc => hdigits c (List.mem_of_mem_drop hc)
  unfold scientificText
  dsimp only
  refine (htake.append ?_).append (((marks_natText _).cons ?_).cons (by decide))
  · split
    · exact marks_nil
    · exact hdrop.cons (by decide)
  · split <;> decide

theorem Style.write_marks (style : Style) (d : Double) : Marks (style.write d) := by
  unfold Style.write
  dsimp only
  have hsign : Marks (if d.negative then ['-'] else []) := by
    split
    · exact marks_nil.cons (by decide)
    · exact marks_nil
  split
  · refine hsign.append ?_
    split
    · exact ((marks_nil.cons (by decide)).cons (by decide)).cons (by decide)
    · exact marks_nil.cons (by decide)
  · refine hsign.append ?_
    split
    · exact positionalText_marks _ (digits_shortest_lt d)
    · exact scientificText_marks (digits_shortest_lt d)

theorem Style.write_ne_nil (style : Style) (d : Double) : style.write d ≠ [] := by
  unfold Style.write
  dsimp only
  split
  · refine List.append_ne_nil_of_right_ne_nil _ ?_
    split <;> simp
  · refine List.append_ne_nil_of_right_ne_nil _ ?_
    split
    · exact positionalText_ne_nil _ _
    · simp [scientificText]

end Decimal

namespace Json

open Decimal

theorem Number.write_marks : ∀ n : Number, Marks n.write
  | .integer (.ofNat n) => marks_natText n
  | .integer (.negSucc n) => (marks_natText (n + 1)).cons (by decide)
  | .double d => numberStyle.write_marks d

theorem Number.write_ne_nil : ∀ n : Number, n.write ≠ []
  | .integer (.ofNat n) => natText_ne_nil n
  | .integer (.negSucc _) => List.cons_ne_nil _ _
  | .double d => numberStyle.write_ne_nil d

end Json

end BundleLedger
