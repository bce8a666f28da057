import SceneScript.Decimal.Numeral
import SceneScript.Proofs.Text.Blank

/-!
# The form of a numeral

A numeral is a mantissa with at least one digit and an optional exponent. The form is
stated without a scanner, together with the number that it stands for. If any numeral
begins a text, the scanner finds the longest one. Texts of the form have a value, and of
what the scanner finds nothing else has.
-/

set_option autoImplicit false

namespace SceneScript.Decimal

open SceneScript.Text

def IsDigits (text : List Char) : Prop :=
  ∀ c ∈ text, c.isDigit = true

/-- Digits with an optional point among or beside them, and the digits on the two sides of
the point. -/
inductive IsMantissa : (text whole fraction : List Char) → Prop where
  | whole {digits : List Char} : IsDigits digits → IsMantissa digits digits []
  | point {whole fraction : List Char} : IsDigits whole → IsDigits fraction →
      IsMantissa (whole ++ '.' :: fraction) whole fraction

def isExponentMark (c : Char) : Bool :=
  c = 'e' || c = 'E'

/-- An optional sign and its factor. -/
inductive IsSign : List Char → Int → Prop where
  | missing : IsSign [] 1
  | plus : IsSign ['+'] 1
  | minus : IsSign ['-'] (-1)

/-- An optional exponent and its value. -/
inductive IsExponent : List Char → Int → Prop where
  | missing : IsExponent [] 0
  | written {mark : Char} {sign digits : List Char} {factor : Int} :
      isExponentMark mark = true → IsSign sign factor → IsDigits digits → digits ≠ [] →
      IsExponent (mark :: (sign ++ digits)) (factor * ofDigits digits)

/-- A numeral and the number that it stands for. -/
inductive IsNumeral : List Char → Decimal → Prop where
  | intro {mantissa whole fraction exponent : List Char} {power : Int} :
      IsMantissa mantissa whole fraction → whole ++ fraction ≠ [] → IsExponent exponent power →
      IsNumeral (mantissa ++ exponent) ⟨ofDigits (whole ++ fraction), power - fraction.length⟩

theorem isDigits_takeWhile (text : List Char) : IsDigits (text.takeWhile Char.isDigit) :=
  fun _ member => List.mem_takeWhile_imp member

/-! ## Mantissas -/

theorem IsMantissa.isDigit_or_point {mantissa whole fraction : List Char}
    (form : IsMantissa mantissa whole fraction) {c : Char} (member : c ∈ mantissa) :
    c ∈ whole ++ fraction ∧ c.isDigit = true ∨ c = '.' := by
  cases form with
  | whole digits => exact .inl ⟨List.mem_append_left _ member, digits c member⟩
  | point wholeDigits fractionDigits =>
      rcases List.mem_append.mp member with inWhole | behind
      · exact .inl ⟨List.mem_append_left _ inWhole, wholeDigits c inWhole⟩
      rcases List.mem_cons.mp behind with point | inFraction
      · exact .inr point
      · exact .inl ⟨List.mem_append_right _ inFraction, fractionDigits c inFraction⟩

theorem IsMantissa.mem_of_digit {mantissa whole fraction : List Char}
    (form : IsMantissa mantissa whole fraction) {c : Char} (member : c ∈ whole ++ fraction) :
    c ∈ mantissa ∧ c.isDigit = true := by
  cases form with
  | whole digits =>
      rw [List.append_nil] at member
      exact ⟨member, digits c member⟩
  | point wholeDigits fractionDigits =>
      rcases List.mem_append.mp member with inWhole | inFraction
      · exact ⟨List.mem_append_left _ inWhole, wholeDigits c inWhole⟩
      · exact ⟨List.mem_append_right _ (List.mem_cons_of_mem _ inFraction),
          fractionDigits c inFraction⟩

theorem mantissaPart_point {whole : List Char} (digits : IsDigits whole) (rest : List Char) :
    mantissaPart (whole ++ '.' :: rest) = whole ++ '.' :: rest.takeWhile Char.isDigit := by
  simp only [mantissaPart, takeWhile_append_cons digits (d := '.') rfl,
    dropWhile_append_cons digits (d := '.') rfl]

theorem mantissaPart_isMantissa (text : List Char) :
    ∃ whole fraction, IsMantissa (mantissaPart text) whole fraction := by
  unfold mantissaPart
  split
  · exact ⟨_, _, .point (isDigits_takeWhile text) (isDigits_takeWhile _)⟩
  · exact ⟨_, _, .whole (isDigits_takeWhile text)⟩

theorem mantissaPart_isPrefix (text : List Char) : mantissaPart text <+: text := by
  have parts : text.takeWhile Char.isDigit ++ text.dropWhile Char.isDigit = text :=
    List.takeWhile_append_dropWhile
  unfold mantissaPart
  split
  · rename_i rest behind
    rw [behind] at parts
    conv => rhs; rw [← parts]
    exact (List.prefix_append_right_inj _).mpr
      (List.cons_prefix_cons.mpr ⟨rfl, List.takeWhile_prefix _⟩)
  · exact List.takeWhile_prefix _

theorem IsMantissa.isPrefix_mantissaPart {mantissa whole fraction text : List Char}
    (form : IsMantissa mantissa whole fraction) (begins : mantissa <+: text) :
    mantissa <+: mantissaPart text := by
  cases form with
  | whole digits =>
      refine (isPrefix_takeWhile digits begins).trans ?_
      unfold mantissaPart
      split
      · exact List.prefix_append _ _
      · exact List.prefix_rfl
  | point wholeDigits fractionDigits =>
      obtain ⟨rest, rfl⟩ := begins
      rw [List.append_assoc, List.cons_append, mantissaPart_point wholeDigits]
      exact (List.prefix_append_right_inj _).mpr (List.cons_prefix_cons.mpr
        ⟨rfl, isPrefix_takeWhile fractionDigits (List.prefix_append _ _)⟩)

/-! ## Exponents -/

theorem exponentPart_cons {mark : Char} (marked : isExponentMark mark = true)
    {sign digits : List Char} {factor : Int} (signed : IsSign sign factor) (all : IsDigits digits)
    (some : digits ≠ []) (rest : List Char) :
    exponentPart (mark :: (sign ++ (digits ++ rest))) =
      mark :: (sign ++ (digits ++ rest).takeWhile Char.isDigit) := by
  obtain ⟨d, more, rfl⟩ := List.exists_cons_of_ne_nil some
  have digit : d.isDigit = true := all d List.mem_cons_self
  have isMark : (decide (mark = 'e') || decide (mark = 'E')) = true := marked
  cases signed with
  | missing =>
      have unsigned : (decide (d = '+') || decide (d = '-')) = false := by
        rw [Bool.eq_false_iff]
        intro isSign
        simp only [Bool.or_eq_true, decide_eq_true_eq] at isSign
        rcases isSign with rfl | rfl <;> cases digit
      simp [exponentPart, unsigned, isMark, digit]
  | plus => simp [exponentPart, isMark, digit]
  | minus => simp [exponentPart, isMark, digit]

theorem IsExponent.isPrefix_exponentPart {exponent text : List Char} {power : Int}
    (form : IsExponent exponent power) (begins : exponent <+: text) :
    exponent <+: exponentPart text := by
  cases form with
  | missing => exact List.nil_prefix
  | written marked signed all some =>
      obtain ⟨rest, rfl⟩ := begins
      rw [List.cons_append, List.append_assoc, exponentPart_cons marked signed all some]
      exact List.cons_prefix_cons.mpr ⟨rfl, (List.prefix_append_right_inj _).mpr
        (isPrefix_takeWhile all (List.prefix_append _ _))⟩

theorem exists_isSign (rest : List Char) : ∃ sign factor digits, IsSign sign factor ∧
    rest = sign ++ digits ∧ ((rest.take 1).filter fun c => c = '+' || c = '-') = sign := by
  cases rest with
  | nil => exact ⟨[], 1, [], .missing, rfl, rfl⟩
  | cons c rest =>
      by_cases plus : c = '+'
      · exact ⟨['+'], 1, rest, .plus, by simp [plus], by simp [plus]⟩
      by_cases minus : c = '-'
      · exact ⟨['-'], -1, rest, .minus, by simp [minus], by simp [minus]⟩
      · exact ⟨[], 1, c :: rest, .missing, rfl, by simp [plus, minus]⟩

theorem exponentPart_isExponent (text : List Char) :
    exponentPart text <+: text ∧ ∃ power, IsExponent (exponentPart text) power := by
  cases text with
  | nil => exact ⟨List.nil_prefix, 0, .missing⟩
  | cons mark rest =>
      obtain ⟨sign, factor, digits, signed, rfl, filtered⟩ := exists_isSign rest
      simp only [exponentPart, filtered, List.drop_left]
      split
      · rename_i found
        simp only [Bool.and_eq_true, decide_eq_true_eq] at found
        constructor
        · exact List.cons_prefix_cons.mpr ⟨rfl, (List.prefix_append_right_inj _).mpr
            (List.takeWhile_prefix _)⟩
        · exact ⟨_, .written found.1 signed (isDigits_takeWhile _) found.2⟩
      · exact ⟨List.nil_prefix, 0, .missing⟩

/-- A mark is no digit and no point, so that an exponent does not go on with a mantissa. -/
theorem IsExponent.first {exponent : List Char} {power : Int} (form : IsExponent exponent power)
    {c : Char} (first : exponent.head? = some c) : c.isDigit = false ∧ c ≠ '.' := by
  cases form with
  | missing => cases first
  | written marked signed all some =>
      cases first
      simp only [isExponentMark, Bool.or_eq_true, decide_eq_true_eq] at marked
      rcases marked with rfl | rfl <;> exact ⟨rfl, by decide⟩

/-! ## The longest numeral -/

theorem numeral_eq {text after : List Char} (parts : mantissaPart text ++ after = text) :
    numeral text = mantissaPart text ++ exponentPart after := by
  have behind : (mantissaPart text ++ after).drop (mantissaPart text).length = after :=
    List.drop_left
  rw [parts] at behind
  simp only [numeral, behind]

theorem numeral_isPrefix (text : List Char) : numeral text <+: text := by
  obtain ⟨after, parts⟩ := mantissaPart_isPrefix text
  rw [numeral_eq parts]
  conv => rhs; rw [← parts]
  exact (List.prefix_append_right_inj _).mpr (exponentPart_isExponent after).1

/-- A mantissa that ends too early is followed by what it should go on with. -/
theorem IsExponent.eq_nil_of_isPrefix {exponent behind text : List Char} {power : Int}
    (form : IsExponent exponent power) {c : Char} (continues : c ∈ mantissaPart text)
    (begins : exponent <+: c :: behind) : exponent = [] := by
  cases exponent with
  | nil => rfl
  | cons d exponent =>
      obtain ⟨notDigit, notPoint⟩ := form.first (c := d) rfl
      cases (List.cons_prefix_cons.mp begins).1
      obtain ⟨whole, fraction, mantissaForm⟩ := mantissaPart_isMantissa text
      rcases mantissaForm.isDigit_or_point continues with ⟨-, digit⟩ | point
      · rw [digit] at notDigit
        cases notDigit
      · exact absurd point notPoint

theorem IsNumeral.length_le {part text : List Char} {number : Decimal}
    (form : IsNumeral part number) (begins : part <+: text) :
    part.length ≤ (numeral text).length := by
  cases form with
  | @intro mantissa whole fraction exponent power mantissaForm some exponentForm =>
      obtain ⟨more, longer⟩ :=
        mantissaForm.isPrefix_mantissaPart ((List.prefix_append _ _).trans begins)
      obtain ⟨after, parts⟩ := mantissaPart_isPrefix text
      have behind : exponent <+: more ++ after := by
        rw [← parts, ← longer, List.append_assoc] at begins
        exact (List.prefix_append_right_inj mantissa).mp begins
      rw [numeral_eq parts, ← longer]
      cases more with
      | nil =>
          have shorter := (exponentForm.isPrefix_exponentPart behind).length_le
          simpa using shorter
      | cons c more =>
          have continues : c ∈ mantissaPart text := by simp [← longer]
          simp [exponentForm.eq_nil_of_isPrefix continues behind]

theorem IsNumeral.numeral_self {text : List Char} {number : Decimal}
    (form : IsNumeral text number) : numeral text = text :=
  (numeral_isPrefix text).eq_of_length_le (form.length_le List.prefix_rfl)

theorem IsNumeral.exists_cons {text : List Char} {number : Decimal} (form : IsNumeral text number) :
    ∃ first rest, text = first :: rest ∧ (first.isDigit || first = '.') = true := by
  cases form with
  | @intro mantissa whole fraction exponent power mantissaForm some exponentForm =>
      obtain ⟨c, member⟩ := List.exists_mem_of_ne_nil _ some
      cases mantissa with
      | nil => cases (mantissaForm.mem_of_digit member).1
      | cons first rest =>
          refine ⟨first, rest ++ exponent, rfl, ?_⟩
          rw [Bool.or_eq_true, decide_eq_true_eq]
          exact (mantissaForm.isDigit_or_point List.mem_cons_self).imp_left And.right

/-! ## Values -/

theorem mantissaPart_append {mantissa whole fraction exponent : List Char} {power : Int}
    (mantissaForm : IsMantissa mantissa whole fraction) (exponentForm : IsExponent exponent power) :
    mantissaPart (mantissa ++ exponent) = mantissa := by
  obtain ⟨more, longer⟩ := mantissaForm.isPrefix_mantissaPart (List.prefix_append mantissa exponent)
  have behind := mantissaPart_isPrefix (mantissa ++ exponent)
  rw [← longer, List.prefix_append_right_inj] at behind
  cases more with
  | nil => simpa using longer.symm
  | cons c more =>
      obtain ⟨rest, rfl⟩ := behind
      have continues : c ∈ mantissaPart (mantissa ++ (c :: more ++ rest)) := by
        rw [← longer]
        simp
      cases exponentForm.eq_nil_of_isPrefix continues List.prefix_rfl

theorem exponentValue_eq {exponent : List Char} {power : Int} (form : IsExponent exponent power) :
    exponentValue (exponent.drop 1) = power := by
  cases form with
  | missing => rfl
  | @written mark sign digits factor marked signed all some =>
      obtain ⟨d, more, rfl⟩ := List.exists_cons_of_ne_nil some
      have digit : d.isDigit = true := all d List.mem_cons_self
      cases signed with
      | missing =>
          simp only [List.nil_append, List.drop_succ_cons, List.drop_zero, Int.one_mul]
          unfold exponentValue
          split
          · rename_i isMinus
            cases isMinus
            cases digit
          · rename_i isPlus
            cases isPlus
            cases digit
          · rfl
      | plus => simp [exponentValue]
      | minus => simp [exponentValue]

theorem read?_append {mantissa whole fraction exponent : List Char} {power : Int}
    (mantissaForm : IsMantissa mantissa whole fraction) (exponentForm : IsExponent exponent power) :
    read? (mantissa ++ exponent) =
      if whole ++ fraction = [] then none
      else some ⟨ofDigits (whole ++ fraction), power - fraction.length⟩ := by
  have value := exponentValue_eq exponentForm
  simp only [read?, mantissaPart_append mantissaForm exponentForm, List.drop_left, value]
  cases mantissaForm with
  | whole digits => simp [List.takeWhile_eq_self_iff.mpr digits]
  | point wholeDigits fractionDigits =>
      simp [takeWhile_append_cons wholeDigits (d := '.') rfl]

theorem IsNumeral.read?_eq {text : List Char} {number : Decimal} (form : IsNumeral text number) :
    read? text = some number := by
  cases form with
  | intro mantissaForm some exponentForm => rw [read?_append mantissaForm exponentForm, if_neg some]

theorem IsNumeral.unique {text : List Char} {number other : Decimal} (form : IsNumeral text number)
    (again : IsNumeral text other) : number = other :=
  Option.some.inj (form.read?_eq.symm.trans again.read?_eq)

theorem isNumeral_of_read? {text : List Char} {number : Decimal}
    (found : read? (numeral text) = some number) : IsNumeral (numeral text) number := by
  obtain ⟨after, parts⟩ := mantissaPart_isPrefix text
  obtain ⟨whole, fraction, mantissaForm⟩ := mantissaPart_isMantissa text
  obtain ⟨power, exponentForm⟩ := (exponentPart_isExponent after).2
  rw [numeral_eq parts] at found ⊢
  rw [read?_append mantissaForm exponentForm] at found
  split at found
  · cases found
  · rename_i some
    cases found
    exact .intro mantissaForm some exponentForm

theorem IsNumeral.exists_longest {part text : List Char} {number : Decimal}
    (form : IsNumeral part number) (begins : part <+: text) :
    ∃ found, IsNumeral (numeral text) found := by
  cases form with
  | @intro mantissa whole fraction exponent power mantissaForm some exponentForm =>
      have longer := mantissaForm.isPrefix_mantissaPart ((List.prefix_append _ _).trans begins)
      obtain ⟨after, parts⟩ := mantissaPart_isPrefix text
      obtain ⟨whole', fraction', longestForm⟩ := mantissaPart_isMantissa text
      obtain ⟨power', exponentForm'⟩ := (exponentPart_isExponent after).2
      -- A digit of the shorter mantissa is one of the longer.
      obtain ⟨c, member⟩ := List.exists_mem_of_ne_nil _ some
      obtain ⟨inside, digit⟩ := mantissaForm.mem_of_digit member
      have found : whole' ++ fraction' ≠ [] := by
        rcases longestForm.isDigit_or_point (longer.subset inside) with ⟨again, -⟩ | rfl
        · exact List.ne_nil_of_mem again
        · cases digit
      rw [numeral_eq parts]
      exact ⟨_, .intro longestForm found exponentForm'⟩

end SceneScript.Decimal
