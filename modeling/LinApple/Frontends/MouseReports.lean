import Mathlib.Data.List.Basic

/-!
# Reports from a terminal

What `parse_csi` makes of a control sequence, and the three reports that are told from it: of the
mouse, of a mode, and of the size of a cell.
-/

namespace LinApple.Frontends

/-- `csi_max_params` -/
def csiMaxParams : Nat := 3

/-- `csi_max_param_digits` -/
def csiMaxParamDigits : Nat := 6

/-- `CsiReport`, with as many parameters as there are. -/
structure CsiReport where
  marker : UInt8
  params : List Nat
  intermediate : UInt8
  final : UInt8
deriving DecidableEq, Repr

/-- The loop of `parse_csi` over parameters: those that are complete, the one that has begun, and
its digits. It stops at a byte of another kind. -/
def parseParams : List UInt8 → List Nat → Option Nat → Nat → Option (List Nat × List UInt8)
  | [], params, param, _ => some (params ++ param.toList, [])
  | b :: seq, params, param, digits =>
    if 0x30 ≤ b ∧ b ≤ 0x39 then
      if param.isNone ∧ params.length ≥ csiMaxParams then none
      else if digits + 1 > csiMaxParamDigits then none
      else parseParams seq params (some (param.getD 0 * 10 + (b - 0x30).toNat)) (digits + 1)
    else if b = 0x3b then
      if param.isNone ∨ params.length ≥ csiMaxParams then none
      else parseParams seq (params ++ param.toList) none 0
    else some (params ++ param.toList, b :: seq)

/-- `parse_csi` -/
def parseCsi (seq : List UInt8) : Option CsiReport :=
  match seq with
  | esc :: bracket :: b :: behind =>
    if esc ≠ 0x1b ∨ bracket ≠ 0x5b then none
    else
      let marked : Bool := b = 0x3c ∨ b = 0x3f
      match parseParams (if marked then behind else b :: behind) [] none 0 with
      | none => none
      | some (params, rest) =>
        let between : Bool := rest.head?.any fun c => 0x20 ≤ c && c ≤ 0x2f
        match if between then rest.tail else rest with
        | [final] =>
          if final < 0x40 ∨ final > 0x7e then none
          else
            some
              { marker := if marked then b else 0
                params
                intermediate := if between then rest.headD 0 else 0
                final }
        | _ => none
  | _ => none

/-- `MouseSgrEvent` -/
structure MouseSgrEvent where
  button : Nat
  pressed : Bool
  released : Bool
  motion : Bool
  wheel : Bool
  x : Nat
  y : Nat
deriving DecidableEq, Repr

/-- `mouse_frontend_sgr_decode` -/
def mouseFrontendSgrDecode (seq : List UInt8) : Option MouseSgrEvent :=
  match parseCsi seq with
  | some ⟨marker, [cb, x, y], intermediate, final⟩ =>
    if marker ≠ 0x3c ∨ intermediate ≠ 0 ∨ final ≠ 0x4d ∧ final ≠ 0x6d then none
    else
      let button := cb &&& 3
      let motion : Bool := cb &&& 32 ≠ 0
      let wheel : Bool := cb &&& 64 ≠ 0
      some
        { button
          motion
          wheel
          released := final = 0x6d
          pressed := final = 0x4d ∧ !motion ∧ !wheel ∧ button ≠ 3
          x
          y }
  | _ => none

/-- `mouse_frontend_decode_mode_report`: a mode and its setting. -/
def mouseFrontendDecodeModeReport (seq : List UInt8) : Option (Nat × Nat) :=
  match parseCsi seq with
  | some ⟨marker, [mode, setting], intermediate, final⟩ =>
    if marker ≠ 0x3f ∨ intermediate ≠ 0x24 ∨ final ≠ 0x79 then none else some (mode, setting)
  | _ => none

/-- `mouse_frontend_decode_cell_size_report`: a width and a height. -/
def mouseFrontendDecodeCellSizeReport (seq : List UInt8) : Option (Nat × Nat) :=
  match parseCsi seq with
  | some ⟨marker, [kind, height, width], intermediate, final⟩ =>
    if marker ≠ 0 ∨ kind ≠ 6 ∨ intermediate ≠ 0 ∨ final ≠ 0x74 then none else some (width, height)
  | _ => none

end LinApple.Frontends
