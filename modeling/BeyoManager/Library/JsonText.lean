import BeyoManager.Library.Dict
import BeyoManager.Library.Json
import BeyoManager.Library.Transition

/-! # Reading JSON texts

A machine reads a text from left to right, with a stack of the containers that are open.
It accepts what `json.loads` accepts: JSON, and besides the constants NaN and Infinity.
Python's limits on nesting and on the digits of an integer are parameters of a reading;
without them, and without the constants, what the machine accepts is JSON.
-/

namespace JsonText

open PyText Transition

section Machine

/-- The exceptions of `json.loads`: of these, only the first is a `JSONDecodeError`. -/
inductive ReadError
  | decodeError
  | recursionError
  | digitsError
  deriving DecidableEq, Repr

/-- What the interpreter grants a reading; `none` is no limit. -/
structure Limits where
  maxDepth : Option ℕ
  maxDigits : Option ℕ

def Limits.unlimited : Limits := ⟨none, none⟩

/-- A container that is open; an object has a key that waits for its value. -/
inductive Frame
  | arr (items : List Json)
  | obj (fields : List (PyStr × Json)) (key : PyStr)

inductive StringPhase
  | plain
  | escape
  | unicode (count value : ℕ)

inductive NumberPhase
  | minus | zero | digits | dot | frac | exp | expSign | expDigits
  deriving DecidableEq, Repr

structure NumberText where
  negative : Bool
  value : ℕ
  intDigits : ℕ
  isFloat : Bool
  text : PyStr

inductive Mode
  | value
  | valueOrClose
  | keyOrClose
  | key
  | colon
  | after
  | literal (rest : PyStr) (value : Json) (constant : Bool)
  | string (isKey : Bool) (text : PyStr) (phase : StringPhase)
  | number (phase : NumberPhase) (number : NumberText)

/-- A reading: `constant` says that it has met NaN or Infinity. -/
structure State where
  mode : Mode
  stack : List Frame
  result : Option Json
  constant : Bool

def State.start : State := ⟨.value, [], none, false⟩

def isWhitespace (c : ℕ) : Bool := c == 32 || c == 9 || c == 10 || c == 13

def exceeds (limit : Option ℕ) (n : ℕ) : Prop := ∃ m ∈ limit, m < n

instance (limit : Option ℕ) (n : ℕ) : Decidable (exceeds limit n) :=
  match limit with
  | none => isFalse (by simp [exceeds])
  | some m => decidable_of_iff (m < n) (by simp [exceeds])

/-- A value is complete: it goes to the container that is open. -/
def State.emit (s : State) (value : Json) : State :=
  match s.stack with
  | [] => { s with mode := .after, result := some value }
  | .arr items :: stack => { s with mode := .after, stack := .arr (items ++ [value]) :: stack }
  | .obj fields key :: stack =>
    { s with mode := .after, stack := .obj (Dict.set fields key value) [] :: stack }

def State.push (limits : Limits) (s : State) (frame : Frame) (mode : Mode) :
    Except ReadError State := do
  throwIf (exceeds limits.maxDepth (s.stack.length + 1)) .recursionError
  pure { s with mode := mode, stack := frame :: s.stack }

def State.startValue (limits : Limits) (s : State) (c : ℕ) : Except ReadError State :=
  if c = 34 then .ok { s with mode := .string false [] .plain }
  else if c = 91 then s.push limits (.arr []) .valueOrClose
  else if c = 123 then s.push limits (.obj [] []) .keyOrClose
  else if c = 45 then .ok { s with mode := .number .minus ⟨true, 0, 0, false, [45]⟩ }
  else if c = 48 then .ok { s with mode := .number .zero ⟨false, 0, 1, false, [48]⟩ }
  else if isDigit c then .ok { s with mode := .number .digits ⟨false, c - 48, 1, false, [c]⟩ }
  else if c = 110 then .ok { s with mode := .literal (ofString "ull") .null false }
  else if c = 116 then .ok { s with mode := .literal (ofString "rue") (.bool true) false }
  else if c = 102 then .ok { s with mode := .literal (ofString "alse") (.bool false) false }
  else if c = 78 then .ok { s with mode := .literal (ofString "aN") (.float (ofString "nan")) true }
  else if c = 73 then
    .ok { s with mode := .literal (ofString "nfinity") (.float (ofString "inf")) true }
  else .error .decodeError

def State.afterValue (s : State) (c : ℕ) : Except ReadError State :=
  if isWhitespace c then .ok s
  else match s.stack with
    | [] => .error .decodeError
    | .arr items :: stack =>
      if c = 44 then .ok { s with mode := .value }
      else if c = 93 then .ok ({ s with stack := stack }.emit (.arr items))
      else .error .decodeError
    | .obj fields _ :: stack =>
      if c = 44 then .ok { s with mode := .key }
      else if c = 125 then .ok ({ s with stack := stack }.emit (.obj fields))
      else .error .decodeError

def State.literal (s : State) (rest : PyStr) (value : Json) (constant : Bool) (c : ℕ) :
    Except ReadError State :=
  match rest with
  | [] => .error .decodeError
  | [last] =>
    if c = last then .ok { s.emit value with constant := s.constant || constant }
    else .error .decodeError
  | next :: rest =>
    if c = next then .ok { s with mode := .literal rest value constant } else .error .decodeError

section Strings

/-- Two escapes that are a surrogate pair are one code point. -/
def joinSurrogates : PyStr → PyStr
  | high :: low :: rest =>
    if 0xd800 ≤ high ∧ high ≤ 0xdbff ∧ 0xdc00 ≤ low ∧ low ≤ 0xdfff then
      (0x10000 + (high - 0xd800) * 0x400 + (low - 0xdc00)) :: joinSurrogates rest
    else high :: joinSurrogates (low :: rest)
  | text => text

/-- The character that an escape of one letter stands for. -/
def escaped (c : ℕ) : Option ℕ :=
  if c = 34 ∨ c = 92 ∨ c = 47 then some c
  else if c = 98 then some 8
  else if c = 102 then some 12
  else if c = 110 then some 10
  else if c = 114 then some 13
  else if c = 116 then some 9
  else none

def hexValue (c : ℕ) : Option ℕ :=
  if isDigit c then some (c - 48)
  else if 97 ≤ c ∧ c ≤ 102 then some (c - 87)
  else if 65 ≤ c ∧ c ≤ 70 then some (c - 55)
  else none

/-- The end of a string: a key waits for its value, anything else is a value. -/
def State.finishString (s : State) (isKey : Bool) (text : PyStr) : State :=
  if isKey then
    match s.stack with
    | .obj fields _ :: stack =>
      { s with mode := .colon, stack := .obj fields (joinSurrogates text) :: stack }
    | _ => { s with mode := .colon }
  else s.emit (.str (joinSurrogates text))

def State.string (s : State) (isKey : Bool) (text : PyStr) (phase : StringPhase) (c : ℕ) :
    Except ReadError State :=
  match phase with
  | .plain =>
    if c = 34 then .ok (s.finishString isKey text)
    else if c = 92 then .ok { s with mode := .string isKey text .escape }
    else if c < 32 then .error .decodeError
    else .ok { s with mode := .string isKey (text ++ [c]) .plain }
  | .escape =>
    if c = 117 then .ok { s with mode := .string isKey text (.unicode 0 0) }
    else match escaped c with
      | some d => .ok { s with mode := .string isKey (text ++ [d]) .plain }
      | none => .error .decodeError
  | .unicode count value =>
    match hexValue c with
    | none => .error .decodeError
    | some h =>
      if count = 3 then .ok { s with mode := .string isKey (text ++ [16 * value + h]) .plain }
      else .ok { s with mode := .string isKey text (.unicode (count + 1) (16 * value + h)) }

end Strings

section Numbers

variable (reprFloat : PyStr → PyStr)

/-- The value of a number that ends; `int` refuses too many digits. -/
def numberValue (limits : Limits) (number : NumberText) : Except ReadError Json :=
  if number.isFloat then .ok (.float (reprFloat number.text))
  else do
    throwIf (exceeds limits.maxDigits number.intDigits) .digitsError
    pure (.int (if number.negative then -number.value else number.value))

def State.finishNumber (limits : Limits) (s : State) (number : NumberText) :
    Except ReadError State := do
  let value ← numberValue reprFloat limits number
  pure (s.emit value)

/-- A dot or an exponent that no digit follows is not part of the number, which ends before it. -/
def abandonNumber (limits : Limits) (number : NumberText) : Except ReadError State := do
  let _ ← numberValue reprFloat limits number
  .error .decodeError

/-- A character inside a number. -/
def State.number (limits : Limits) (s : State) (phase : NumberPhase) (number : NumberText) (c : ℕ) :
    Except ReadError State :=
  let ends : Except ReadError State := do
    let s ← s.finishNumber reprFloat limits number
    s.afterValue c
  let goes (phase : NumberPhase) (number : NumberText) : Except ReadError State :=
    .ok { s with mode := .number phase { number with text := number.text ++ [c] } }
  let isExp := c = 101 ∨ c = 69
  match phase with
  | .minus =>
    if c = 48 then goes .zero { number with intDigits := 1 }
    else if isDigit c then goes .digits { number with value := c - 48, intDigits := 1 }
    else if c = 73 then
      .ok { s with mode := .literal (ofString "nfinity") (.float (ofString "-inf")) true }
    else .error .decodeError
  | .zero => if c = 46 then goes .dot number else if isExp then goes .exp number else ends
  | .digits =>
    if isDigit c then
      goes .digits { number with
        value := 10 * number.value + (c - 48), intDigits := number.intDigits + 1 }
    else if c = 46 then goes .dot number
    else if isExp then goes .exp number
    else ends
  | .dot =>
    if isDigit c then goes .frac { number with isFloat := true }
    else abandonNumber reprFloat limits number
  | .frac => if isDigit c then goes .frac number else if isExp then goes .exp number else ends
  | .exp =>
    if c = 43 ∨ c = 45 then goes .expSign number
    else if isDigit c then goes .expDigits { number with isFloat := true }
    else abandonNumber reprFloat limits number
  | .expSign =>
    if isDigit c then goes .expDigits { number with isFloat := true }
    else abandonNumber reprFloat limits number
  | .expDigits => if isDigit c then goes .expDigits number else ends

end Numbers

variable (reprFloat : PyStr → PyStr) (limits : Limits)

def State.step (s : State) (c : ℕ) : Except ReadError State :=
  match s.mode with
  | .value => if isWhitespace c then .ok s else s.startValue limits c
  | .valueOrClose =>
    if isWhitespace c then .ok s
    else if c = 93 then { s with mode := .after }.afterValue c
    else s.startValue limits c
  | .keyOrClose =>
    if isWhitespace c then .ok s
    else if c = 34 then .ok { s with mode := .string true [] .plain }
    else if c = 125 then { s with mode := .after }.afterValue c
    else .error .decodeError
  | .key =>
    if isWhitespace c then .ok s
    else if c = 34 then .ok { s with mode := .string true [] .plain }
    else .error .decodeError
  | .colon =>
    if isWhitespace c then .ok s
    else if c = 58 then .ok { s with mode := .value }
    else .error .decodeError
  | .after => s.afterValue c
  | .literal rest value constant => s.literal rest value constant c
  | .string isKey text phase => s.string isKey text phase c
  | .number phase number => s.number reprFloat limits phase number c

/-- The value of a reading that ends where every container is closed. -/
def State.value? (s : State) : Except ReadError (Json × Bool) :=
  match s.stack, s.result with
  | [], some value => .ok (value, s.constant)
  | _, _ => .error .decodeError

def State.finish (s : State) : Except ReadError (Json × Bool) :=
  match s.mode with
  | .after => s.value?
  | .number phase number =>
    if phase = .minus then .error .decodeError
    else do
      let ended ← s.finishNumber reprFloat limits number
      if phase = .dot ∨ phase = .exp ∨ phase = .expSign then .error .decodeError else ended.value?
  | _ => .error .decodeError

/-- `json.loads`, with the constants it has met. -/
def read (text : PyStr) : Except ReadError (Json × Bool) := do
  let s ← text.foldlM (State.step reprFloat limits) .start
  s.finish reprFloat limits

end Machine

section Unlimited

/-- A reading under limits is the reading without them, as long as no limit stops it. -/
def Limited {α : Type} (x y : Except ReadError α) : Prop :=
  x = y ∨ x = .error .recursionError ∨ x = .error .digitsError

namespace Limited

variable {α β : Type} {x y : Except ReadError α}

theorem rfl : Limited x x := .inl (Eq.refl x)

theorem bind {f g : α → Except ReadError β} (hxy : Limited x y) (hfg : ∀ a, Limited (f a) (g a)) :
    Limited (x >>= f) (y >>= g) := by
  rcases hxy with hxy | hx | hx
  · subst hxy
    cases x with
    | error e => exact rfl
    | ok a => exact hfg a
  · subst hx
    exact .inr (.inl (Eq.refl _))
  · subst hx
    exact .inr (.inr (Eq.refl _))

theorem ite {p : Prop} [Decidable p] {x' y' : Except ReadError α} (h : Limited x y)
    (h' : Limited x' y') : Limited (if p then x else x') (if p then y else y') := by
  by_cases hp : p
  · rwa [if_pos hp, if_pos hp]
  · rwa [if_neg hp, if_neg hp]

theorem of_ok {a : α} (h : Limited x y) (hx : x = .ok a) : y = .ok a := by
  rcases h with rfl | rfl | rfl
  · exact hx
  · cases hx
  · cases hx

theorem of_decodeError (h : Limited x y) (hx : x = .error .decodeError) :
    y = .error .decodeError := by
  rcases h with rfl | rfl | rfl
  · exact hx
  · cases hx
  · cases hx

end Limited

variable (reprFloat : PyStr → PyStr) (limits : Limits) (s : State)

theorem limited_throwIf {e : ReadError} (he : e = .recursionError ∨ e = .digitsError)
    (limit : Option ℕ) (n : ℕ) :
    Limited (throwIf (exceeds limit n) e) (throwIf (exceeds none n) e) := by
  have hnone : throwIf (exceeds none n) e = .ok () := if_neg (by simp [exceeds])
  by_cases h : exceeds limit n
  · rcases he with rfl | rfl
    · exact .inr (.inl (if_pos h))
    · exact .inr (.inr (if_pos h))
  · exact .inl ((if_neg h).trans hnone.symm)

theorem limited_push (frame : Frame) (mode : Mode) :
    Limited (s.push limits frame mode) (s.push .unlimited frame mode) :=
  (limited_throwIf (.inl rfl) _ _).bind fun _ => Limited.rfl

theorem limited_startValue (c : ℕ) :
    Limited (s.startValue limits c) (s.startValue .unlimited c) := by
  unfold State.startValue
  repeat' apply Limited.ite
  all_goals first | exact Limited.rfl | exact limited_push limits s _ _

theorem limited_numberValue (number : NumberText) :
    Limited (numberValue reprFloat limits number) (numberValue reprFloat .unlimited number) := by
  unfold numberValue
  apply Limited.rfl.ite
  exact (limited_throwIf (.inr rfl) _ _).bind fun _ => Limited.rfl

theorem limited_finishNumber (number : NumberText) :
    Limited (s.finishNumber reprFloat limits number)
      (s.finishNumber reprFloat .unlimited number) :=
  (limited_numberValue reprFloat limits number).bind fun _ => Limited.rfl

theorem limited_number (phase : NumberPhase) (number : NumberText) (c : ℕ) :
    Limited (s.number reprFloat limits phase number c)
      (s.number reprFloat .unlimited phase number c) := by
  have hends : Limited (do
        let s ← s.finishNumber reprFloat limits number
        s.afterValue c)
      (do
        let s ← s.finishNumber reprFloat .unlimited number
        s.afterValue c) :=
    (limited_finishNumber reprFloat limits s number).bind fun _ => Limited.rfl
  have habandon : Limited (abandonNumber reprFloat limits number)
      (abandonNumber reprFloat .unlimited number) :=
    (limited_numberValue reprFloat limits number).bind fun _ => Limited.rfl
  cases phase
  all_goals
    unfold State.number
    dsimp only
    repeat' apply Limited.ite
    all_goals first | exact Limited.rfl | exact hends | exact habandon

theorem limited_step (c : ℕ) :
    Limited (s.step reprFloat limits c) (s.step reprFloat .unlimited c) := by
  unfold State.step
  cases s.mode with
  | value => exact Limited.rfl.ite (limited_startValue limits s c)
  | valueOrClose => exact Limited.rfl.ite (Limited.rfl.ite (limited_startValue limits s c))
  | number phase number => exact limited_number reprFloat limits s phase number c
  | _ => exact Limited.rfl

theorem limited_finish : Limited (s.finish reprFloat limits) (s.finish reprFloat .unlimited) := by
  unfold State.finish
  cases s.mode with
  | number phase number =>
    exact Limited.rfl.ite
      ((limited_finishNumber reprFloat limits s number).bind fun _ => Limited.rfl)
  | _ => exact Limited.rfl

/-- What `json.loads` returns, and every `JSONDecodeError` of it, is independent of the limits. -/
theorem limited_read (text : PyStr) :
    Limited (read reprFloat limits text) (read reprFloat .unlimited text) := by
  have hfold : ∀ s, Limited (text.foldlM (State.step reprFloat limits) s)
      (text.foldlM (State.step reprFloat .unlimited) s) := by
    induction text with
    | nil => exact fun s => Limited.rfl
    | cons c text ih => exact fun s => (limited_step reprFloat limits s c).bind ih
  exact (hfold .start).bind fun s => limited_finish reprFloat limits s

end Unlimited

end JsonText
