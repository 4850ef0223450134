import QuerySieve.Proofs.Text.Utf8
import QuerySieve.Text.Percent

/-!
# The bytes behind escapes

The bytes that an encoding stands for do not depend on the room for them. A separator that is
written as itself cuts them in two, even if an escape is cut off there or the bytes are no UTF-8.

* `unescaped`, **`unescape_eq`**: the bytes behind the escapes, and the room that they need.
* `decoded`, `urlDecode_eq`: the text behind an encoding.
* `unescaped_append`, **`decoded_append`**: the cuts at separators.
-/

namespace QuerySieve.Text

/-! ## Bytes -/

/-- The bytes behind the escapes, however many they are. -/
def unescaped : List UInt8 → List UInt8
  | [] => []
  | b :: h :: l :: rest =>
    match escapedByte? b h l with
    | some x => x :: unescaped rest
    | none => plainByte b :: unescaped (h :: l :: rest)
  | b :: rest => plainByte b :: unescaped rest

theorem map_cons_eq_if {b : UInt8} {bs : List UInt8} {room : Nat} {o : Option (List UInt8)}
    (h : o = if bs.length ≤ room then some bs else none) :
    o.map (b :: ·) = if (b :: bs).length ≤ room + 1 then some (b :: bs) else none := by
  rw [h]
  by_cases hr : bs.length ≤ room <;> simp [hr]

/-- **The room is enough** if the bytes are no more than it. -/
theorem unescape_eq (room : Nat) (xs : List UInt8) :
    unescape room xs = if (unescaped xs).length ≤ room then some (unescaped xs) else none := by
  fun_induction unescaped xs generalizing room with
  | case1 => simp [unescape]
  | case2 b h l rest x hx ih =>
    cases room with
    | zero => rfl
    | succ room =>
      rw [unescape, hx]
      exact map_cons_eq_if (ih room)
  | case3 b h l rest hx ih =>
    cases room with
    | zero => rfl
    | succ room =>
      rw [unescape, hx]
      exact map_cons_eq_if (ih room)
  | case4 b rest hr ih =>
    cases room with
    | zero => rfl
    | succ room =>
      rw [unescape]
      · exact map_cons_eq_if (ih room)
      · exact hr

theorem unescaped_cons {b : UInt8} {xs : List UInt8}
    (hn : ∀ h l rest, xs = h :: l :: rest → escapedByte? b h l = none) :
    unescaped (b :: xs) = plainByte b :: unescaped xs := by
  match xs with
  | [] => rfl
  | [_] => rfl
  | h :: l :: rest => rw [unescaped, hn h l rest rfl]

theorem unescaped_plain {b : UInt8} (hb : b ≠ 0x25) (xs : List UInt8) :
    unescaped (b :: xs) = plainByte b :: unescaped xs :=
  unescaped_cons fun _ _ _ _ => if_neg hb

theorem unescaped_escaped {h l b : UInt8} (hb : escapedByte? 0x25 h l = some b)
    (xs : List UInt8) : unescaped (0x25 :: h :: l :: xs) = b :: unescaped xs := by
  rw [unescaped, hb]

theorem escapedByte?_eq_none {b h l : UInt8} (hd : hexByte? h = none ∨ hexByte? l = none) :
    escapedByte? b h l = none := by
  unfold escapedByte?
  obtain hd | hd := hd
  · simp [hd]
  · cases hexByte? h <;> simp [hd]

/-- **No escape goes over a byte** that is neither `%` nor a digit. -/
theorem unescaped_append {b : UInt8} (hb : b ≠ 0x25) (hd : hexByte? b = none)
    (xs ys : List UInt8) :
    unescaped (xs ++ b :: ys) = unescaped xs ++ plainByte b :: unescaped ys := by
  fun_induction unescaped xs with
  | case1 => exact unescaped_plain hb ys
  | case2 a h l rest x hx ih =>
    rw [List.cons_append, List.cons_append, List.cons_append, unescaped, hx, ih, List.cons_append]
  | case3 a h l rest hx ih =>
    rw [List.cons_append, List.cons_append, List.cons_append, unescaped, hx]
    exact congrArg (plainByte a :: ·) ih
  | case4 a rest hr ih =>
    -- At most one byte stands between `a` and `b`, so an escape at `a` would take `b` in.
    have hn : ∀ h l tail, rest ++ b :: ys = h :: l :: tail → escapedByte? a h l = none := by
      intro h l tail he
      match rest with
      | [] =>
        cases he
        exact escapedByte?_eq_none (.inl hd)
      | [_] =>
        cases he
        exact escapedByte?_eq_none (.inr hd)
      | h :: l :: rest => exact absurd rfl (hr h l rest)
    rw [List.cons_append, unescaped_cons hn, ih, List.cons_append]

/-! ## Texts -/

/-- The bytes that an encoding decodes to. -/
def decodedBytes (raw : String) : List UInt8 :=
  unescaped (utf8 raw.toList)

/-- The text that an encoding decodes to. -/
def decoded (raw : String) : String :=
  String.ofList (decodeUtf8 (decodedBytes raw))

theorem urlDecode_eq (raw : String) (max : Nat) :
    urlDecode raw max =
      if (decodedBytes raw).length ≤ max then .ok (decoded raw) else .error (.tooLong max) := by
  rw [urlDecode, unescape_eq, ← decodedBytes]
  split_ifs <;> rfl

theorem utf8_append (cs ds : List Char) : utf8 (cs ++ ds) = utf8 cs ++ utf8 ds :=
  List.flatMap_append

theorem decodedBytes_append (s t : String) :
    decodedBytes (s ++ "&" ++ t) = decodedBytes s ++ 0x26 :: decodedBytes t := by
  have hu : utf8 "&".toList = [0x26] := by decide
  have hd : hexByte? 0x26 = none := by decide
  unfold decodedBytes
  rw [String.toList_append, String.toList_append, utf8_append, utf8_append, hu, List.append_assoc,
    List.singleton_append, unescaped_append (by decide) hd]
  rfl

/-- **The text is cut at a separator** that is written as itself. -/
theorem decoded_append (s t : String) :
    decoded (s ++ "&" ++ t) = decoded s ++ "&" ++ decoded t := by
  have hc : Char.ofNat (0x26 : UInt8).toNat = '&' := by decide
  unfold decoded decodeUtf8
  rw [decodedBytes_append, decodeFrom_append_ascii (by decide) _ _ none (by simp), hc,
    List.append_cons, String.ofList_append, String.ofList_append]

end QuerySieve.Text
