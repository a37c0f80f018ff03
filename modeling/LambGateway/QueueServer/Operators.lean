import LambGateway.QueueServer.Routing

/-!
# The operators of a channel

A channel is opened for some of four classes of numbers: those of the three operators, given by
tables of their first three digits, and all others. The check of a number goes through the tables,
and in the end asks for the fourth class.
-/

namespace LambGateway.QueueServer.Routing

open Framework

inductive Operator where
  | cmcc
  | ctcc
  | cucc
  | mvno
deriving DecidableEq

namespace Operator

/-- `LAMB_CMCC`, `LAMB_CTCC`, `LAMB_CUCC` and `LAMB_MVNO` -/
def bit : Operator → Int32
  | cmcc => lambCmcc
  | ctcc => lambCtcc
  | cucc => lambCucc
  | mvno => lambMvno

def numbers : Operator → List Bytes
  | cmcc => Routing.cmcc
  | ctcc => Routing.ctcc
  | cucc => Routing.cucc
  | mvno => []

end Operator

/-- The first three digits of the phone are in a table. -/
def InTable (numbers : List Bytes) (phone : CString 20) : Prop :=
  ∃ number ∈ numbers, number <+: phone.text

/-- The classes of a phone: that of a table, or the fourth one if it is in none of them. -/
def InClass (phone : CString 20) (c : Operator) : Prop :=
  if c = .mvno then ∀ d : Operator, ¬ InTable d.numbers phone
  else InTable c.numbers phone

/-- The channel is opened for a class. -/
def Opened (channel : LambChannel) (c : Operator) : Prop :=
  channel.operator &&& c.bit ≠ 0

/-! ## The tables -/

theorem numbers_length (c : Operator) : ∀ number ∈ c.numbers, number.length = 3 := by
  cases c <;> decide

theorem numbers_disjoint {c d : Operator} (hne : c ≠ d) :
    ∀ number ∈ c.numbers, number ∉ d.numbers := by
  cases c <;> cases d <;> first | exact absurd rfl hne | decide

theorem not_inTable_mvno (phone : CString 20) : ¬ InTable Operator.mvno.numbers phone := by
  rintro ⟨number, hmem, -⟩
  exact nomatch hmem

/-- No phone is in two tables. -/
theorem inTable_unique {phone : CString 20} {c d : Operator} (hc : InTable c.numbers phone)
    (hd : InTable d.numbers phone) : c = d := by
  obtain ⟨number, hmem, hfront⟩ := hc
  obtain ⟨other, hother, hfront'⟩ := hd
  have hlen : number.length = other.length := by
    rw [numbers_length c number hmem, numbers_length d other hother]
  have heq : number = other :=
    (List.prefix_of_prefix_length_le hfront hfront' hlen.le).eq_of_length hlen
  by_contra hne
  exact numbers_disjoint hne number hmem (heq ▸ hother)

/-- Every phone has exactly one class. -/
theorem existsUnique_inClass (phone : CString 20) : ∃! c, InClass phone c := by
  by_cases htable : ∃ c : Operator, InTable c.numbers phone
  · obtain ⟨c, hc⟩ := htable
    have hne : c ≠ .mvno := by
      rintro rfl
      exact not_inTable_mvno phone hc
    refine ⟨c, ?_, ?_⟩
    · show InClass phone c
      rwa [InClass, if_neg hne]
    · intro d hd
      by_cases hmvno : d = .mvno
      · rw [InClass, if_pos hmvno] at hd
        exact absurd hc (hd c)
      · rw [InClass, if_neg hmvno] at hd
        exact inTable_unique hd hc
  · refine ⟨.mvno, ?_, ?_⟩
    · show InClass phone .mvno
      rw [InClass, if_pos rfl]
      exact not_exists.mp htable
    · intro d hd
      by_contra hne
      rw [InClass, if_neg hne] at hd
      exact htable ⟨d, hd⟩

/-! ## The check -/

theorem servedBy_iff (numbers : List Bytes) (operator : Int32) (channel : LambChannel)
    (phone : CString 20) :
    servedBy numbers operator channel phone = true ↔
      InTable numbers phone ∧ channel.operator &&& operator ≠ 0 := by
  rw [servedBy, List.any_eq_true]
  constructor
  · rintro ⟨number, hmem, h⟩
    obtain ⟨hfront, hbit⟩ := Bool.and_eq_true_iff.mp h
    exact ⟨⟨number, hmem, List.isPrefixOf_iff_prefix.mp hfront⟩, bne_iff_ne.mp hbit⟩
  · rintro ⟨⟨number, hmem, hfront⟩, hbit⟩
    refine ⟨number, hmem, Bool.and_eq_true_iff.mpr ⟨?_, bne_iff_ne.mpr hbit⟩⟩
    exact List.isPrefixOf_iff_prefix.mpr hfront

/-- A number is accepted for its table, and every number is for the fourth class. -/
theorem lambCheckOperator_iff (channel : LambChannel) (phone : CString 20) :
    lambCheckOperator channel phone = true ↔
      (∃ c : Operator, InTable c.numbers phone ∧ Opened channel c) ∨ Opened channel .mvno := by
  rw [lambCheckOperator, Bool.or_eq_true, Bool.or_eq_true, Bool.or_eq_true, servedBy_iff,
    servedBy_iff, servedBy_iff, bne_iff_ne]
  constructor
  · rintro (((h | h) | h) | h)
    · exact Or.inl ⟨.cmcc, h⟩
    · exact Or.inl ⟨.ctcc, h⟩
    · exact Or.inl ⟨.cucc, h⟩
    · exact Or.inr h
  · rintro (⟨c, htable, hbit⟩ | h)
    · cases c with
      | cmcc => exact Or.inl (Or.inl (Or.inl ⟨htable, hbit⟩))
      | ctcc => exact Or.inl (Or.inl (Or.inr ⟨htable, hbit⟩))
      | cucc => exact Or.inl (Or.inr ⟨htable, hbit⟩)
      | mvno => exact Or.inr hbit
    · exact Or.inr h

/-- A phone has one class, and is accepted if and only if the channel is opened for it, unless the
channel is opened for the fourth class and not for that of the phone. -/
theorem check_operator_iff (channel : LambChannel) (phone : CString 20) :
    ((∃! c, InClass phone c) ∧ ∀ c, InClass phone c →
      (lambCheckOperator channel phone = true ↔ Opened channel c)) ↔
      (Opened channel .mvno → ∃ c, InClass phone c ∧ Opened channel c) := by
  have hclass := existsUnique_inClass phone
  obtain ⟨c, hc, honly⟩ := hclass
  rw [lambCheckOperator_iff]
  constructor
  · rintro ⟨-, hiff⟩ hmvno
    exact ⟨c, hc, (hiff c hc).mp (Or.inr hmvno)⟩
  · intro h
    refine ⟨existsUnique_inClass phone, ?_⟩
    intro d hd
    constructor
    · rintro (⟨e, htable, hbit⟩ | hmvno)
      · have hne : e ≠ .mvno := by
          rintro rfl
          exact not_inTable_mvno phone htable
        have he : InClass phone e := by rwa [InClass, if_neg hne]
        rwa [honly d hd, ← honly e he]
      · obtain ⟨e, he, hbit⟩ := h hmvno
        rwa [honly d hd, ← honly e he]
    · intro hbit
      by_cases hmvno : d = .mvno
      · exact Or.inr (hmvno ▸ hbit)
      · rw [InClass, if_neg hmvno] at hd
        exact Or.inl ⟨d, hd, hbit⟩

/-- A channel for the other operators alone takes a number of the first one. -/
theorem other_channel_takes_cmcc :
    let channel : LambChannel := ⟨1, 8⟩
    let phone : CString 20 := ⟨ascii "13800138000", by decide, by decide⟩
    lambCheckOperator channel phone = true ∧ InClass phone .cmcc ∧ ¬ Opened channel .cmcc := by
  refine ⟨by decide, ⟨ascii "138", by decide, by decide⟩, ?_⟩
  rw [Opened]
  decide

end LambGateway.QueueServer.Routing
