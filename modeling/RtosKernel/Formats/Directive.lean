import RtosKernel.Libc.Doprnt

/-! Directives by their fields, and the text they are written as. -/

namespace RtosKernel.Libc

variable {mem : Memory} {fmt rest : List (BitVec 8)} {args restArgs : List VaArg} {cv : Conversion}
  {c : BitVec 8} {radix n : Int}

inductive Flag where
  | alt
  | left
  | plus
  | blank
  deriving DecidableEq

def Flag.char : Flag → BitVec 8
  | .alt => ch '#'
  | .left => ch '-'
  | .plus => ch '+'
  | .blank => ch ' '

def Flag.set (cv : Conversion) : Flag → Conversion
  | .alt => { cv with altfmt := true }
  | .left => { cv with ladjust := true }
  | .plus => { cv with plusSign := ch '+' }
  | .blank => if cv.plusSign = 0 then { cv with plusSign := ch ' ' } else cv

def decimalChar (d : Fin 10) : BitVec 8 := BitVec.ofNat 8 (48 + d)

/-- A width or a precision: digits in the format or an argument. -/
inductive Field where
  | none
  | digits (d : Fin 10) (ds : List (Fin 10))
  | star

def Field.chars : Field → List (BitVec 8)
  | .none => []
  | .digits d ds => (d :: ds).map decimalChar
  | .star => [ch '*']

theorem Field.digits_lead {d : Fin 10} (ds : List (Fin 10)) (h : d.val ≠ 0) :
    ∀ e es, Field.digits d ds = .digits e es → e.val ≠ 0 := by
  intro e es heq
  rwa [← (Field.digits.inj heq).1]

/-- The number that digits come to, as an `int`. -/
def decimalValue (ds : List (Fin 10)) : Int :=
  ds.foldl (fun (n : Int) (d : Fin 10) => wrap32 (10 * n + d.val)) 0

/-- The characters that can stand between `%` and the conversion character. -/
def fieldChars : List (BitVec 8) := "#-+ 0123456789*.l".toList.map ch

/-- `conv` cannot be taken for a part of what stands before it or for the end of the format, nor the
first digit of the width for the flag `0`. -/
structure Directive where
  flags : List Flag
  zero : Bool
  width : Field
  prec : Option Field
  longs : Nat
  conv : BitVec 8
  conv_plain : conv ∉ fieldChars
  conv_char : conv ≠ 0
  width_leads : zero = false → ∀ d ds, width = .digits d ds → d.val ≠ 0

namespace Directive

variable (d : Directive)

def longChars : List (BitVec 8) := List.replicate d.longs (ch 'l')

def precChars : List (BitVec 8) := d.prec.elim [] fun f => ch '.' :: f.chars

def zeroChars : List (BitVec 8) := if d.zero then [ch '0'] else []

/-- What stands behind the `%`. -/
def chars : List (BitVec 8) :=
  d.flags.map Flag.char ++ (d.zeroChars ++ (d.width.chars ++ (d.precChars ++
    (d.longChars ++ [d.conv]))))

/-- The width in `cv`; a negative argument turns the side round. -/
def withWidth (cv : Conversion) (args : List VaArg) :
    Except PrintFault (Conversion × List VaArg) :=
  match d.width with
  | .none => .ok (cv, args)
  | .digits e es => .ok ({ cv with length := decimalValue (e :: es) }, args)
  | .star => (vaWord args).map fun (w, args) =>
    (if w.toInt < 0 then { cv with length := wrap32 (-w.toInt), ladjust := !cv.ladjust }
      else { cv with length := w.toInt }, args)

/-- A period without a number leaves the precision open. -/
def withPrec (cv : Conversion) (args : List VaArg) :
    Except PrintFault (Conversion × List VaArg) :=
  match d.prec with
  | .none | .some .none => .ok (cv, args)
  | .some (.digits e es) => .ok ({ cv with prec := decimalValue (e :: es) }, args)
  | .some .star => (vaWord args).map fun (w, args) => ({ cv with prec := w.toInt }, args)

/-- Flags and padding, before any argument is taken. -/
def flagged : Conversion :=
  let cv := d.flags.foldl Flag.set ⟨0, -1, false, ch ' ', 0, false, 0⟩
  if d.zero then { cv with padc := ch '0' } else cv

/-- The conversion the fields stand for, and the arguments left. -/
def conversion (args : List VaArg) : Except PrintFault (Conversion × List VaArg) := do
  let (cv, args) ← d.withWidth d.flagged args
  let (cv, args) ← d.withPrec cv args
  return ({ cv with longopt := cv.longopt + d.longs }, args)

end Directive

section Heads

/-- `fmt` starts with a character without `p`. -/
def Clear (p : BitVec 8 → Bool) (fmt : List (BitVec 8)) : Prop :=
  ∃ c rest, fmt = c :: rest ∧ p c = false

variable {p : BitVec 8 → Bool} (d : Directive)

theorem Clear.append {es : List (BitVec 8)} (h : Clear p fmt) (hes : ∀ e ∈ es.head?, p e = false) :
    Clear p (es ++ fmt) := by
  cases es with
  | nil => exact h
  | cons e es => exact ⟨e, es ++ fmt, rfl, hes e rfl⟩

theorem Directive.conv_clear (h : ∀ c, p c = true → c ∈ fieldChars) : p d.conv = false := by
  rw [Bool.eq_false_iff]
  exact fun hp => d.conv_plain (h _ hp)

theorem Directive.long_clear (hconv : p d.conv = false) (hl : p (ch 'l') = false) :
    Clear p (d.longChars ++ d.conv :: rest) := by
  have h : Clear p (d.conv :: rest) := ⟨_, _, rfl, hconv⟩
  refine h.append fun e he => ?_
  rw [(List.mem_replicate.mp (List.mem_of_mem_head? he)).2]
  exact hl

theorem Directive.prec_clear (hconv : p d.conv = false) (hl : p (ch 'l') = false)
    (hdot : p (ch '.') = false) : Clear p (d.precChars ++ (d.longChars ++ d.conv :: rest)) := by
  refine (d.long_clear hconv hl).append ?_
  unfold Directive.precChars
  cases d.prec with
  | none => simp
  | some f => simpa using hdot

theorem Field.chars_clear (f : Field) (hstar : p (ch '*') = false)
    (hdigit : ∀ e es, f = .digits e es → p (decimalChar e) = false) :
    ∀ e ∈ f.chars.head?, p e = false := by
  cases f with
  | none => simp [Field.chars]
  | digits e es => simpa [Field.chars] using hdigit e es rfl
  | star => simpa [Field.chars] using hstar

end Heads

section Phases

def isFlag (c : BitVec 8) : Bool := c = ch '#' || c = ch '-' || c = ch '+' || c = ch ' '

theorem flags_chars (h : Clear isFlag rest) (fs : List Flag) (cv : Conversion) :
    flags (fs.map Flag.char ++ rest) cv = (rest, fs.foldl Flag.set cv) := by
  induction fs generalizing cv with
  | nil =>
    obtain ⟨c, rest, rfl, hc⟩ := h
    simp only [isFlag, Bool.or_eq_false_iff, decide_eq_false_iff_not] at hc
    obtain ⟨⟨⟨halt, hleft⟩, hplus⟩, hblank⟩ := hc
    simp [flags, halt, hleft, hplus, hblank]
  | cons f fs ih =>
    rw [List.map_cons, List.cons_append, List.foldl_cons, ← ih]
    cases f <;> rfl

theorem zeroFlag_chars (d : Directive) (h : d.zero = false → Clear (· == ch '0') rest)
    (cv : Conversion) :
    zeroFlag (d.zeroChars ++ rest) cv =
      (rest, if d.zero then { cv with padc := ch '0' } else cv) := by
  unfold Directive.zeroChars
  cases hz : d.zero with
  | true => simp [zeroFlag]
  | false =>
    obtain ⟨c, rest, rfl, hc⟩ := h hz
    have hne : c ≠ ch '0' := by simpa using hc
    simp [zeroFlag, hne]

theorem decimalChar_digit (e : Fin 10) :
    isdigit (decimalChar e) = true ∧ ((decimalChar e).toNat : Int) - 48 = e.val := by
  revert e
  decide

theorem decimalChar_nonzero : ∀ e : Fin 10, e.val ≠ 0 → (decimalChar e == ch '0') = false := by
  decide

theorem decimalChar_not_flag : ∀ e : Fin 10, isFlag (decimalChar e) = false := by decide

theorem decimal_chars (h : Clear isdigit rest) (ds : List (Fin 10)) (n : Int) :
    decimal (ds.map decimalChar ++ rest) n =
      (rest, ds.foldl (fun (n : Int) (d : Fin 10) => wrap32 (10 * n + d.val)) n) := by
  induction ds generalizing n with
  | nil =>
    obtain ⟨c, rest, rfl, hc⟩ := h
    simp [decimal, hc]
  | cons e es ih =>
    obtain ⟨hdigit, hval⟩ := decimalChar_digit e
    rw [List.map_cons, List.cons_append, decimal, if_pos hdigit, hval, ih, List.foldl_cons]

/-- The characters that `fieldWidth` looks for. -/
def isWidthChar (c : BitVec 8) : Bool := isdigit c || c = ch '*'

/-- The characters that `precision` looks for. -/
def isPrecChar (c : BitVec 8) : Bool := isdigit c || c = ch '*' || c = ch '.'

theorem fieldWidth_chars (d : Directive) (h : Clear isWidthChar rest)
    (cv : Conversion) (args : List VaArg) :
    fieldWidth (d.width.chars ++ rest) cv args =
      (d.withWidth cv args).map fun (cv, args) => (rest, cv, args) := by
  obtain ⟨c, rest', rfl, hc⟩ := h
  obtain ⟨hdigit, hstar⟩ : isdigit c = false ∧ c ≠ ch '*' := by
    simpa [isWidthChar] using hc
  unfold Directive.withWidth
  cases d.width with
  | none => simp [Field.chars, fieldWidth, hdigit, hstar, Except.map]
  | digits e es =>
    have hclear : Clear isdigit (c :: rest') := ⟨c, rest', rfl, hdigit⟩
    have hdec := decimal_chars hclear (e :: es) 0
    simp only [List.map_cons, List.cons_append] at hdec
    simp [Field.chars, fieldWidth, (decimalChar_digit e).1, hdec, Except.map, decimalValue]
  | star =>
    have hnot : isdigit (ch '*') = false := by decide
    cases hargs : vaWord args with
    | error e => simp [Field.chars, fieldWidth, hnot, hargs, Except.map]
    | ok r => simp [Field.chars, fieldWidth, hnot, hargs, Except.map]

theorem precision_chars (d : Directive)
    (h : Clear isPrecChar rest)
    (cv : Conversion) (args : List VaArg) :
    precision (d.precChars ++ rest) cv args =
      (d.withPrec cv args).map fun (cv, args) => (rest, cv, args) := by
  obtain ⟨c, rest', rfl, hc⟩ := h
  obtain ⟨⟨hdigit, hstar⟩, hdot⟩ : (isdigit c = false ∧ c ≠ ch '*') ∧ c ≠ ch '.' := by
    simpa [isPrecChar] using hc
  unfold Directive.withPrec Directive.precChars
  cases d.prec with
  | none => simp [precision, hdot, Except.map]
  | some f =>
    cases f with
    | none => simp [Field.chars, precision, hdigit, hstar, Except.map]
    | digits e es =>
      have hclear : Clear isdigit (c :: rest') := ⟨c, rest', rfl, hdigit⟩
      have hdec := decimal_chars hclear (e :: es) 0
      simp only [List.map_cons, List.cons_append] at hdec
      simp [Field.chars, precision, (decimalChar_digit e).1, hdec, Except.map, decimalValue]
    | star =>
      have hnot : isdigit (ch '*') = false := by decide
      cases hargs : vaWord args with
      | error e => simp [Field.chars, precision, hnot, hargs, Except.map]
      | ok r => simp [Field.chars, precision, hnot, hargs, Except.map]

theorem longs_chars (h : Clear (· == ch 'l') rest) (k : Nat) (cv : Conversion) :
    longs (List.replicate k (ch 'l') ++ rest) cv =
      (rest, { cv with longopt := cv.longopt + k }) := by
  induction k generalizing cv with
  | zero =>
    obtain ⟨c, rest, rfl, hc⟩ := h
    have hne : c ≠ ch 'l' := by simpa using hc
    simp [longs, hne]
  | succ k ih =>
    rw [List.replicate_succ, List.cons_append, longs, if_pos rfl, ih]
    congr 2
    show cv.longopt + 1 + k = cv.longopt + (k + 1)
    omega

end Phases

/-- A directive is read back as the fields it was written from. -/
theorem directive_chars (d : Directive) (args : List VaArg) :
    directive (d.chars ++ rest) args =
      (d.conversion args).map fun (cv, args) => (d.conv :: rest, cv, args) := by
  have hl : Clear (· == ch 'l') (d.conv :: rest) :=
    ⟨_, _, rfl, d.conv_clear (p := (· == ch 'l')) (by decide +kernel)⟩
  have hprec : Clear isPrecChar
      (d.longChars ++ d.conv :: rest) :=
    d.long_clear (d.conv_clear (p := isPrecChar) (by decide +kernel)) (by decide)
  have hwidth : Clear isWidthChar
      (d.precChars ++ (d.longChars ++ d.conv :: rest)) :=
    d.prec_clear (d.conv_clear (p := isWidthChar) (by decide +kernel)) (by decide) (by decide)
  have hzero : d.zero = false → Clear (· == ch '0')
      (d.width.chars ++ (d.precChars ++ (d.longChars ++ d.conv :: rest))) := by
    intro hz
    refine (d.prec_clear (d.conv_clear (p := (· == ch '0')) (by decide +kernel)) (by decide)
      (by decide)).append ?_
    refine d.width.chars_clear (by decide) fun e es hw => ?_
    exact decimalChar_nonzero e (d.width_leads hz e es hw)
  have hflag : Clear isFlag
      (d.zeroChars ++ (d.width.chars ++ (d.precChars ++ (d.longChars ++ d.conv :: rest)))) := by
    refine ((d.prec_clear (d.conv_clear (p := isFlag) (by decide +kernel)) (by decide)
      (by decide)).append (d.width.chars_clear (by decide) fun e _ _ =>
        decimalChar_not_flag e)).append ?_
    unfold Directive.zeroChars
    split_ifs
    · decide
    · simp
  have hchars : d.chars ++ rest = d.flags.map Flag.char ++ (d.zeroChars ++ (d.width.chars ++
      (d.precChars ++ (d.longChars ++ d.conv :: rest)))) := by
    simp [Directive.chars]
  have hlongs (cv : Conversion) : longs (d.longChars ++ d.conv :: rest) cv =
      (d.conv :: rest, { cv with longopt := cv.longopt + d.longs }) := longs_chars hl d.longs cv
  have hflagged : (zeroFlag (d.zeroChars ++ (d.width.chars ++ (d.precChars ++ (d.longChars ++
      d.conv :: rest)))) (d.flags.foldl Flag.set ⟨0, -1, false, ch ' ', 0, false, 0⟩)) =
      (d.width.chars ++ (d.precChars ++ (d.longChars ++ d.conv :: rest)), d.flagged) :=
    zeroFlag_chars d hzero _
  rw [hchars, directive, flags_chars hflag]
  simp only [hflagged, fieldWidth_chars d hwidth, Directive.conversion, bind, Except.bind]
  cases d.withWidth d.flagged args with
  | error e => rfl
  | ok r =>
    simp only [Except.map, precision_chars d hprec]
    cases d.withPrec r.1 r.2 with
    | error e => rfl
    | ok r' => simp only [hlongs, pure, Except.pure]

/-- A format as it was meant: characters to print as they are, and directives. -/
inductive Piece where
  | text (c : BitVec 8) (h : c ≠ ch '%') (hc : c ≠ 0)
  | directive (d : Directive)

def Piece.chars : Piece → List (BitVec 8)
  | .text c _ _ => [c]
  | .directive d => ch '%' :: d.chars

/-- The output of the pieces, each with the arguments that those before it have left. -/
def printPieces (mem : Memory) (radix : Int) :
    List Piece → List VaArg → Except PrintFault (List (BitVec 8) × List VaArg)
  | [], args => .ok ([], args)
  | .text c _ _ :: ps, args => do
    let (out, args) ← printPieces mem radix ps args
    return (c :: out, args)
  | .directive d :: ps, args => do
    let (cv, args) ← d.conversion args
    let (out, args) ← convert mem radix d.conv cv args
    let (rest, args) ← printPieces mem radix ps args
    return (out ++ rest, args)

theorem doprntLoop_pieces (ps : List Piece) {fuel : Nat} (args : List VaArg)
    (h : (ps.flatMap Piece.chars).length < fuel) :
    doprntLoop mem radix fuel (ps.flatMap Piece.chars) args = printPieces mem radix ps args := by
  induction ps generalizing fuel args with
  | nil =>
    obtain ⟨fuel, rfl⟩ : ∃ k, fuel = k + 1 := ⟨fuel - 1, by omega⟩
    rfl
  | cons piece ps ih =>
    obtain ⟨fuel, rfl⟩ : ∃ k, fuel = k + 1 := ⟨fuel - 1, by omega⟩
    rw [List.flatMap_cons, List.length_append] at h
    rw [List.flatMap_cons]
    cases piece with
    | text c hc hz =>
      have hlen : (Piece.text c hc hz).chars.length = 1 := rfl
      show doprntLoop mem radix (fuel + 1) (c :: ps.flatMap Piece.chars) args = _
      rw [doprntLoop, if_pos hc, ih args (by omega)]
      rfl
    | directive d =>
      have hlen : (Piece.directive d).chars.length = d.chars.length + 1 := rfl
      show doprntLoop mem radix (fuel + 1) (ch '%' :: (d.chars ++ ps.flatMap Piece.chars)) args = _
      rw [doprntLoop, if_neg (by simp), directive_chars, printPieces]
      cases d.conversion args with
      | error e => rfl
      | ok r =>
        show (do
          let (out, args) ← convert mem radix d.conv r.1 r.2
          let (rest, args) ← doprntLoop mem radix fuel (ps.flatMap Piece.chars) args
          return (out ++ rest, args)) = _
        simp only [bind, Except.bind, ih _ (by omega : (ps.flatMap Piece.chars).length < fuel)]

theorem doprnt_directive {d : Directive} {args' : List VaArg} {out : List (BitVec 8)}
    (hd : d.conversion args = .ok (cv, args'))
    (hout : convert mem radix d.conv cv args' = .ok (out, restArgs)) :
    doprnt mem (ch '%' :: d.chars) args radix = .ok (out, restArgs) := by
  have hone : ch '%' :: d.chars = [Piece.directive d].flatMap Piece.chars := by
    simp [Piece.chars]
  rw [hone, doprnt, doprntLoop_pieces _ _ (Nat.lt_succ_self _)]
  simp [printPieces, hd, hout, bind, Except.bind, pure, Except.pure]

theorem Field.chars_ne_zero (f : Field) : ∀ c ∈ f.chars, c ≠ 0 := by
  have hdigit : ∀ e : Fin 10, decimalChar e ≠ 0 := by decide
  cases f with
  | none => simp [Field.chars]
  | digits e es =>
    intro c hc
    obtain ⟨e', _, rfl⟩ := List.mem_map.mp hc
    exact hdigit e'
  | star =>
    have hstar : ch '*' ≠ 0 := by decide
    simpa [Field.chars] using hstar

/-- The end of the format is not inside a directive. -/
theorem Directive.chars_ne_zero (d : Directive) : ∀ c ∈ d.chars, c ≠ 0 := by
  have hflag (f : Flag) : f.char ≠ 0 := by cases f <;> decide
  have hzero : ch '0' ≠ 0 := by decide
  have hdot : ch '.' ≠ 0 := by decide
  have hl : ch 'l' ≠ 0 := by decide
  intro c hc
  simp only [Directive.chars, List.mem_append, List.mem_singleton] at hc
  rcases hc with hc | hc | hc | hc | hc | rfl
  · obtain ⟨f, _, rfl⟩ := List.mem_map.mp hc
    exact hflag f
  · unfold Directive.zeroChars at hc
    split_ifs at hc
    · rw [List.mem_singleton.mp hc]
      exact hzero
    · cases hc
  · exact d.width.chars_ne_zero c hc
  · unfold Directive.precChars at hc
    cases hp : d.prec with
    | none =>
      rw [hp] at hc
      cases hc
    | some f =>
      rw [hp] at hc
      rcases List.mem_cons.mp hc with rfl | hc
      · exact hdot
      · exact f.chars_ne_zero c hc
  · rw [(List.mem_replicate.mp hc).2]
    exact hl
  · exact d.conv_char

theorem Piece.chars_ne_zero (piece : Piece) : ∀ c ∈ piece.chars, c ≠ 0 := by
  have hpercent : ch '%' ≠ 0 := by decide
  intro c hc
  cases piece with
  | text c' _ hz =>
    rw [List.mem_singleton.mp hc]
    exact hz
  | directive d =>
    rcases List.mem_cons.mp hc with rfl | hc
    · exact hpercent
    · exact d.chars_ne_zero c hc

/-- A format written piece by piece has no end before its last piece, and is printed piece by
piece. -/
theorem doprnt_pieces (mem : Memory) (radix : Int) (ps : List Piece) (args : List VaArg) :
    (∀ c ∈ ps.flatMap Piece.chars, c ≠ 0) ∧
      doprnt mem (ps.flatMap Piece.chars) args radix = printPieces mem radix ps args := by
  refine ⟨fun c hc => ?_, doprntLoop_pieces ps args (Nat.lt_succ_self _)⟩
  obtain ⟨piece, _, hc⟩ := List.mem_flatMap.mp hc
  exact piece.chars_ne_zero c hc

end RtosKernel.Libc
