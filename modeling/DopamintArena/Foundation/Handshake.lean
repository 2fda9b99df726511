import Mathlib.Data.List.Basic

/-!
Two sides that append to one log over a network that loses, repeats and
reorders. A side offers an entry for the end of its log and keeps it pending
until the receipt arrives; the other side appends the entry when it sees the
offer and answers with a receipt. At most one of the two may append to a given
log.

Messages are not stored: a message that was really sent is backed by its
sender, and stays so whatever the sender does next. The two logs are then equal
or one is ahead by the entry the other has pending, and every backed message
finds the receiver in one of a few situations. Over a channel that loses nothing
and keeps the order the two sides even determine what is on its way.
-/

namespace Foundation.Handshake

variable {E : Type*}

/-- One side: the log it holds and the entry it has offered for its end. -/
@[ext] structure Side (E : Type*) where
  log : List E
  pending : Option E

/-- An entry offered for a position, or the receipt of the entry at a position. -/
inductive Message (E : Type*)
  | offer (index : Nat) (entry : E)
  | receipt (index : Nat) (entry : E)

def Message.index : Message E → Nat
  | .offer k _ => k
  | .receipt k _ => k

def Message.entry : Message E → E
  | .offer _ e => e
  | .receipt _ e => e

namespace Side

def fresh : Side E := ⟨[], none⟩

def offer (x : Side E) (e : E) : Side E := { x with pending := some e }

def accept (x : Side E) (e : E) : Side E := { x with log := x.log ++ [e] }

def commit (x : Side E) (e : E) : Side E := ⟨x.log ++ [e], none⟩

/-- What one step can make of a side. -/
inductive Advances (x : Side E) : Side E → Prop
  | stay : Advances x x
  | offer (e : E) (hfree : x.pending = none) : Advances x (x.offer e)
  | accept (e : E) (hfree : x.pending = none) : Advances x (x.accept e)
  | commit (e : E) (hpending : x.pending = some e) : Advances x (x.commit e)

/-- The side has sent such a message, now or at an earlier time. `turn` says which entries it
may append to which log. -/
def Backs (turn : List E → E → Prop) (x : Side E) : Message E → Prop
  | .offer k e => turn (x.log.take k) e ∧ (x.log ++ x.pending.toList)[k]? = some e
  | .receipt k e => x.log[k]? = some e

end Side

/-- Every entry was appended by a side that could append it there. -/
def Legit (mine yours : List E → E → Prop) (log : List E) : Prop :=
  ∀ k e, log[k]? = some e → mine (log.take k) e ∨ yours (log.take k) e

/-- The two logs are equal, or one is ahead by what the other has pending. -/
structure InStep (mine yours : List E → E → Prop) (x y : Side E) : Prop where
  logs : x.log = y.log ∨ (∃ e, x.pending = some e ∧ y.log = x.log ++ [e]) ∨
    (∃ e, y.pending = some e ∧ x.log = y.log ++ [e])
  mineTurn : ∀ e, x.pending = some e → mine x.log e
  yoursTurn : ∀ e, y.pending = some e → yours y.log e
  legit : Legit mine yours x.log ∧ Legit mine yours y.log

section

variable {turn mine yours : List E → E → Prop} {x y : Side E} {e : E} {k : Nat}
variable {message : Message E}

/-! ### Messages stay backed -/

theorem Side.Backs.offer (h : x.Backs turn message) (hfree : x.pending = none) :
    (x.offer e).Backs turn message := by
  cases message with
  | offer =>
    obtain ⟨hturn, hat⟩ := h
    rw [hfree, Option.toList_none, List.append_nil] at hat
    refine ⟨hturn, ?_⟩
    rw [Side.offer, List.getElem?_append_left (List.getElem?_eq_some_iff.mp hat).1]
    exact hat
  | receipt => exact h

theorem Side.Backs.accept (h : x.Backs turn message) (hfree : x.pending = none) :
    (x.accept e).Backs turn message := by
  cases message with
  | offer =>
    obtain ⟨hturn, hat⟩ := h
    rw [hfree, Option.toList_none, List.append_nil] at hat
    have hk := (List.getElem?_eq_some_iff.mp hat).1
    refine ⟨?_, ?_⟩
    · rw [Side.accept, List.take_append_of_le_length (Nat.le_of_lt hk)]
      exact hturn
    · rw [Side.accept, List.append_assoc, List.getElem?_append_left hk]
      exact hat
  | receipt =>
    have hk := (List.getElem?_eq_some_iff.mp h).1
    exact (List.getElem?_append_left hk).trans h

theorem Side.Backs.commit (h : x.Backs turn message) (hpending : x.pending = some e) :
    (x.commit e).Backs turn message := by
  cases message with
  | offer =>
    obtain ⟨hturn, hat⟩ := h
    rw [hpending, Option.toList_some] at hat
    have hk := (List.getElem?_eq_some_iff.mp hat).1
    rw [List.length_append, List.length_singleton] at hk
    refine ⟨?_, ?_⟩
    · rw [Side.commit, List.take_append_of_le_length (by omega)]
      exact hturn
    · rw [Side.commit, Option.toList_none, List.append_nil]
      exact hat
  | receipt =>
    have hk := (List.getElem?_eq_some_iff.mp h).1
    exact (List.getElem?_append_left hk).trans h

/-- Whatever the sender does next, its messages stay backed. -/
theorem Side.Advances.backs {x' : Side E} (h : x.Advances x') (hbacks : x.Backs turn message) :
    x'.Backs turn message := by
  cases h with
  | stay => exact hbacks
  | offer _ hfree => exact hbacks.offer hfree
  | accept _ hfree => exact hbacks.accept hfree
  | commit _ hpending => exact hbacks.commit hpending

/-- A pending entry stays pending until it is appended. -/
theorem Side.Advances.pending {x' : Side E} (h : x.Advances x') (hpending : x.pending = some e) :
    x' = x ∨ x' = x.commit e := by
  cases h with
  | stay => exact .inl rfl
  | offer _ hfree | accept _ hfree =>
    rw [hpending] at hfree
    cases hfree
  | commit _ hpending' =>
    rw [hpending] at hpending'
    cases hpending'
    exact .inr rfl

theorem Side.backs_pending (hpending : x.pending = some e) (hturn : turn x.log e) :
    x.Backs turn (.offer x.log.length e) := by
  refine ⟨by rwa [List.take_length], ?_⟩
  simp [hpending]

theorem Side.backs_last (x : Side E) (e : E) :
    (x.accept e).Backs turn (.receipt x.log.length e) := by
  simp [Side.Backs, Side.accept]

/-! ### The two sides stay in step -/

theorem legit_nil : Legit mine yours [] := by
  rintro k e ⟨⟩

theorem Legit.concat {log : List E} (h : Legit mine yours log) (he : mine log e ∨ yours log e) :
    Legit mine yours (log ++ [e]) := by
  intro k e' hat
  by_cases hk : k < log.length
  · rw [List.getElem?_append_left hk] at hat
    rw [List.take_append_of_le_length (Nat.le_of_lt hk)]
    exact h k e' hat
  · have hlt := (List.getElem?_eq_some_iff.mp hat).1
    rw [List.length_append, List.length_singleton] at hlt
    obtain rfl : k = log.length := by omega
    rw [List.getElem?_concat_length, Option.some.injEq] at hat
    rw [List.take_left, ← hat]
    exact he

theorem Legit.symm {log : List E} (h : Legit mine yours log) : Legit yours mine log :=
  fun k e hat => (h k e hat).symm

theorem inStep_fresh : InStep mine yours (Side.fresh (E := E)) Side.fresh where
  logs := .inl rfl
  mineTurn := by rintro e ⟨⟩
  yoursTurn := by rintro e ⟨⟩
  legit := ⟨legit_nil, legit_nil⟩

namespace InStep

section

variable (h : InStep mine yours x y)
include h

theorem symm : InStep yours mine y x where
  logs := by
    rcases h.logs with hsame | hbehind | hahead
    · exact .inl hsame.symm
    · exact .inr (.inr hbehind)
    · exact .inr (.inl hahead)
  mineTurn := h.yoursTurn
  yoursTurn := h.mineTurn
  legit := ⟨h.legit.2.symm, h.legit.1.symm⟩

theorem length_le : x.log.length ≤ y.log.length + 1 := by
  rcases h.logs with hsame | ⟨e, -, hlog⟩ | ⟨e, -, hlog⟩
  · rw [hsame]
    omega
  · rw [hlog, List.length_append]
    omega
  · simp [hlog]

/-- Where both logs have an entry it is the same. -/
theorem agree {e' : E} (hx : x.log[k]? = some e) (hy : y.log[k]? = some e') : e = e' := by
  have hkx := (List.getElem?_eq_some_iff.mp hx).1
  have hky := (List.getElem?_eq_some_iff.mp hy).1
  rcases h.logs with hsame | ⟨last, -, hlog⟩ | ⟨last, -, hlog⟩
  · rw [hsame, hy] at hx
    exact (Option.some.inj hx).symm
  · rw [hlog, List.getElem?_append_left hkx, hx] at hy
    exact Option.some.inj hy
  · rw [hlog, List.getElem?_append_left hky, hy] at hx
    exact (Option.some.inj hx).symm

/-- With nothing pending on either side the logs are equal. -/
theorem eq_of_no_pending (hx : x.pending = none) (hy : y.pending = none) : x.log = y.log := by
  rcases h.logs with hsame | ⟨e, hpending, -⟩ | ⟨e, hpending, -⟩
  · exact hsame
  · rw [hx] at hpending
    cases hpending
  · rw [hy] at hpending
    cases hpending

/-- Behind the other side this side waits for the receipt of the entry it is behind by. -/
theorem behind (hlt : x.log.length < y.log.length) :
    ∃ e, x.pending = some e ∧ y.log = x.log ++ [e] := by
  rcases h.logs with hsame | hbehind | ⟨e, -, hlog⟩
  · rw [hsame] at hlt
    omega
  · exact hbehind
  · rw [hlog, List.length_append] at hlt
    omega

theorem eq_of_length (heq : x.log.length = y.log.length) :
    x.log = y.log := by
  rcases h.logs with hsame | ⟨e, -, hlog⟩ | ⟨e, -, hlog⟩
  · exact hsame
  · rw [hlog, List.length_append, List.length_singleton] at heq
    omega
  · rw [hlog, List.length_append, List.length_singleton] at heq
    omega

/-- Behind with an entry pending, the other side has it at the end of its log. -/
theorem last_of_behind (hpending : x.pending = some e) (hlt : x.log.length < y.log.length) :
    x.log.length + 1 = y.log.length ∧ y.log[x.log.length]? = some e := by
  obtain ⟨own, hown, hlog⟩ := h.behind hlt
  rw [hpending] at hown
  cases hown
  simp [hlog]

/-- Of two level sides only one has something pending. -/
theorem free_of_pending (hexcl : ∀ log e e', mine log e → ¬yours log e')
    (hpending : x.pending = some e) (heq : x.log.length = y.log.length) : y.pending = none := by
  cases hyours : y.pending with
  | none => rfl
  | some e' =>
    have hturn := h.mineTurn e hpending
    rw [h.eq_of_length heq] at hturn
    exact absurd (h.yoursTurn e' hyours) (hexcl _ _ _ hturn)

theorem offer (hfree : x.pending = none) (hturn : mine x.log e) :
    InStep mine yours (x.offer e) y where
  logs := by
    rcases h.logs with hsame | ⟨last, hpending, -⟩ | hahead
    · exact .inl hsame
    · rw [hfree] at hpending
      cases hpending
    · exact .inr (.inr hahead)
  mineTurn := by
    rintro _ ⟨⟩
    exact hturn
  yoursTurn := h.yoursTurn
  legit := h.legit

theorem accept (hfree : x.pending = none) (hlog : x.log = y.log) (hpending : y.pending = some e) :
    InStep mine yours (x.accept e) y where
  logs := .inr (.inr ⟨e, hpending, by rw [Side.accept, hlog]⟩)
  mineTurn := by
    intro e' he'
    rw [Side.accept, hfree] at he'
    cases he'
  yoursTurn := h.yoursTurn
  legit := ⟨h.legit.1.concat (.inr (hlog ▸ h.yoursTurn e hpending)), h.legit.2⟩

theorem commit (hlog : y.log = x.log ++ [e]) :
    InStep mine yours (x.commit e) y where
  logs := .inl hlog.symm
  mineTurn := by rintro e' ⟨⟩
  yoursTurn := h.yoursTurn
  legit := ⟨by rw [Side.commit, ← hlog]; exact h.legit.2, h.legit.2⟩

/-! ### What a message meets -/

/-- An offer is of an entry already there, or of the next one with the other side still waiting
and this side free, or this side has not seen the receipt of its own entry yet. -/
theorem offer_cases (hexcl : ∀ log e e', mine log e → ¬yours log e')
    (hbacked : y.Backs yours (.offer k e)) :
    (k < x.log.length ∧ x.log[k]? = some e) ∨
      (k = x.log.length ∧ x.pending = none ∧ x.log = y.log ∧ y.pending = some e) ∨
      (k = x.log.length + 1 ∧ ∃ own, x.pending = some own ∧ y.log = x.log ++ [own]) := by
  obtain ⟨hturn, hat⟩ := hbacked
  have hk : k < y.log.length ∨ k = y.log.length ∧ y.pending = some e := by
    by_cases hlt : k < y.log.length
    · exact .inl hlt
    · rw [List.getElem?_append_right (Nat.not_lt.mp hlt)] at hat
      cases hpending : y.pending with
      | none =>
        rw [hpending] at hat
        cases hat
      | some =>
        rw [hpending, Option.toList_some, List.getElem?_singleton] at hat
        split at hat
        · next hzero =>
            cases hat
            exact .inr ⟨by omega, rfl⟩
        · cases hat
  rcases hk with hlt | ⟨rfl, hpending⟩
  · rw [List.getElem?_append_left hlt] at hat
    by_cases hx : k < x.log.length
    · refine .inl ⟨hx, ?_⟩
      rw [List.getElem?_eq_getElem hx, h.agree (List.getElem?_eq_getElem hx) hat]
    · -- the entry would be this side's own, but it is the other side's turn there
      obtain ⟨own, hown, hlog⟩ := h.behind (by omega)
      have hend : k = x.log.length := by
        rw [hlog, List.length_append, List.length_singleton] at hlt
        omega
      subst hend
      rw [hlog, List.take_left] at hturn
      exact absurd hturn (hexcl _ _ _ (h.mineTurn own hown))
  · rcases Nat.lt_trichotomy x.log.length y.log.length with hlt | heq | hgt
    · obtain ⟨own, hown, hlog⟩ := h.behind hlt
      refine .inr (.inr ⟨?_, own, hown, hlog⟩)
      rw [hlog, List.length_append, List.length_singleton]
    · have hlog := h.eq_of_length heq
      refine .inr (.inl ⟨heq.symm, ?_, hlog, hpending⟩)
      cases hown : x.pending with
      | none => rfl
      | some own =>
        have hmine := h.mineTurn own hown
        rw [hlog] at hmine
        exact absurd (h.yoursTurn e hpending) (hexcl _ _ _ hmine)
    · obtain ⟨_, hlast, hlog⟩ := h.symm.behind hgt
      rw [hpending] at hlast
      cases hlast
      exact .inl ⟨hgt, by simp [hlog]⟩

/-- A receipt is of an entry already there, or of the pending one. -/
theorem receipt_cases (hbacked : y.Backs yours (.receipt k e)) :
    (k < x.log.length ∧ x.log[k]? = some e) ∨
      (k = x.log.length ∧ x.pending = some e ∧ y.log = x.log ++ [e]) := by
  have hat : y.log[k]? = some e := hbacked
  have hlt := (List.getElem?_eq_some_iff.mp hat).1
  by_cases hx : k < x.log.length
  · refine .inl ⟨hx, ?_⟩
    rw [List.getElem?_eq_getElem hx, h.agree (List.getElem?_eq_getElem hx) hat]
  · obtain ⟨_, hown, hlog⟩ := h.behind (by omega)
    have hend : k = x.log.length := by
      rw [hlog, List.length_append, List.length_singleton] at hlt
      omega
    subst hend
    simp only [hlog, List.getElem?_concat_length, Option.some.injEq] at hat
    subst hat
    exact .inr ⟨rfl, hown, hlog⟩

end

end InStep

/-! ### One end takes a step -/

variable {F : Type*} {reads : F → Message E → Prop} {x' : Side E} {frame : F} {sent out : List F}

/-- Every frame is that of a message the side has sent. -/
def Side.Posts (reads : F → Message E → Prop) (turn : List E → E → Prop) (x : Side E)
    (frames : List F) : Prop :=
  ∀ frame ∈ frames, ∃ message, reads frame message ∧ x.Backs turn message

theorem Side.posts_nil : x.Posts reads turn [] := by
  rintro frame ⟨⟩

theorem Side.posts_singleton (hreads : reads frame message) (hbacks : x.Backs turn message) :
    x.Posts reads turn [frame] := by
  intro frame' hframe
  rw [List.mem_singleton.mp hframe]
  exact ⟨message, hreads, hbacks⟩

theorem Side.Posts.append (h : x.Posts reads turn sent) (hadvances : x.Advances x')
    (hout : x'.Posts reads turn out) : x'.Posts reads turn (sent ++ out) := by
  intro frame hframe
  rcases List.mem_append.mp hframe with hframe | hframe
  · obtain ⟨message, hreads, hbacks⟩ := h frame hframe
    exact ⟨message, hreads, hadvances.backs hbacks⟩
  · exact hout frame hframe

/-- From `x` the side advances to `x'` with the other end at `y`, and sends what it has posted. -/
structure Step (reads : F → Message E → Prop) (mine yours : List E → E → Prop) (y x x' : Side E)
    (out : List F) : Prop where
  advances : x.Advances x'
  inStep : InStep mine yours x' y
  posts : x'.Posts reads mine out

namespace InStep

variable (h : InStep mine yours x y)
include h

theorem stays (hposts : x.Posts reads mine out) : Step reads mine yours y x x out :=
  ⟨.stay, h, hposts⟩

theorem offers (hfree : x.pending = none) (hturn : mine x.log e)
    (hreads : reads frame (.offer x.log.length e)) :
    Step reads mine yours y x (x.offer e) [frame] :=
  ⟨.offer e hfree, h.offer hfree hturn, Side.posts_singleton hreads (Side.backs_pending rfl hturn)⟩

theorem resends (hpending : x.pending = some e) (hreads : reads frame (.offer x.log.length e)) :
    Step reads mine yours y x x [frame] :=
  h.stays (Side.posts_singleton hreads (Side.backs_pending hpending (h.mineTurn e hpending)))

theorem accepts (hfree : x.pending = none) (hlog : x.log = y.log) (hpending : y.pending = some e)
    (hreads : reads frame (.receipt x.log.length e)) :
    Step reads mine yours y x (x.accept e) [frame] :=
  ⟨.accept e hfree, h.accept hfree hlog hpending, Side.posts_singleton hreads (x.backs_last e)⟩

theorem commits (hpending : x.pending = some e) (hlog : y.log = x.log ++ [e]) :
    Step reads mine yours y x (x.commit e) [] :=
  ⟨.commit e hpending, h.commit hlog, Side.posts_nil⟩

end InStep

end

/-! ### Over a channel that loses nothing and keeps the order -/

/-- What is on its way to `x` from `y`: the receipt `x` waits for, then the offer of `y`. -/
def onTheWay (x y : Side E) : List (Message E) :=
  (if x.log.length < y.log.length then x.pending.toList.map (.receipt x.log.length) else []) ++
    (if x.log.length ≤ y.log.length then y.pending.toList.map (.offer y.log.length) else [])

/-- The side has made an offer that the other one has not taken over yet. -/
def unanswered (x y : Side E) : Bool := x.pending.isSome && decide (y.log.length ≤ x.log.length)

theorem unanswered_of_free {x : Side E} (hfree : x.pending = none) (y : Side E) :
    unanswered x y = false := by
  simp [unanswered, hfree]

section

variable {mine yours : List E → E → Prop} {x y : Side E} {e : E}

theorem onTheWay_ahead (hlt : y.log.length < x.log.length) : onTheWay x y = [] := by
  rw [onTheWay, if_neg (by omega), if_neg (by omega), List.append_nil]

theorem onTheWay_level (heq : x.log.length = y.log.length) :
    onTheWay x y = y.pending.toList.map (.offer y.log.length) := by
  rw [onTheWay, if_neg (by omega), if_pos (by omega), List.nil_append]

theorem onTheWay_behind (hlt : x.log.length < y.log.length) :
    onTheWay x y = x.pending.toList.map (.receipt x.log.length) ++
      y.pending.toList.map (.offer y.log.length) := by
  rw [onTheWay, if_pos hlt, if_pos (Nat.le_of_lt hlt)]

namespace InStep

section

variable (h : InStep mine yours x y)
include h

theorem not_behind (hfree : x.pending = none) :
    y.log.length ≤ x.log.length := by
  by_contra hlt
  obtain ⟨_, hpending, -⟩ := h.behind (Nat.lt_of_not_le hlt)
  rw [hfree] at hpending
  cases hpending

/-- A side that waits for nothing meets at most the next offer. -/
theorem free_cases (hfree : x.pending = none) :
    (onTheWay x y = [] ∧ unanswered y x = false) ∨
      ∃ e, y.pending = some e ∧ x.log = y.log ∧ onTheWay x y = [.offer x.log.length e] := by
  have hle := h.not_behind hfree
  rcases Nat.lt_or_ge y.log.length x.log.length with hlt | hge
  · refine .inl ⟨onTheWay_ahead hlt, ?_⟩
    simp [unanswered, hlt]
  · have hlog := h.eq_of_length (by omega)
    rw [onTheWay_level (congrArg List.length hlog)]
    cases hpending : y.pending with
    | none => exact .inl ⟨rfl, unanswered_of_free hpending x⟩
    | some e => exact .inr ⟨e, rfl, hlog, by rw [hlog]; rfl⟩

/-- A side that waits for its receipt meets it first; if it is not on its way, nothing is, and the
offer is on its way to the other side. -/
theorem pending_cases (hexcl : ∀ log e e', mine log e → ¬yours log e')
    (hpending : x.pending = some e) :
    (y.log = x.log ++ [e] ∧ onTheWay x y = .receipt x.log.length e :: onTheWay (x.commit e) y) ∨
    (onTheWay x y = [] ∧ onTheWay y x ≠ [] ∧ unanswered x y = true) := by
  rcases h.logs with hsame | ⟨own, hown, hlog⟩ | ⟨last, hlast, hlog⟩
  · have hfree : y.pending = none := by
      cases hother : y.pending with
      | none => rfl
      | some e' =>
        have hmine := h.mineTurn e hpending
        rw [hsame] at hmine
        exact absurd (h.yoursTurn e' hother) (hexcl _ _ _ hmine)
    refine .inr ⟨?_, ?_, ?_⟩
    · rw [onTheWay_level (congrArg List.length hsame), hfree]
      rfl
    · rw [onTheWay_level (congrArg List.length hsame.symm), hpending]
      simp
    · simp [unanswered, hsame, hpending]
  · rw [hpending] at hown
    cases hown
    refine .inl ⟨hlog, ?_⟩
    have hlevel : (x.commit e).log.length = y.log.length := congrArg List.length hlog.symm
    rw [onTheWay_behind (by simp [hlog]), onTheWay_level hlevel, hpending]
    rfl
  · refine .inr ⟨onTheWay_ahead (by simp [hlog]), ?_, ?_⟩
    · rw [onTheWay_behind (by simp [hlog]), hpending]
      simp
    · simp [unanswered, hlog, hpending]

theorem onTheWay_offer (hfree : x.pending = none) (e : E) :
    onTheWay (x.offer e) y = onTheWay x y ∧
      onTheWay y (x.offer e) = onTheWay y x ++ [.offer x.log.length e] ∧
      unanswered (x.offer e) y = true := by
  have hlog : (x.offer e).log = x.log := rfl
  have hpending : (x.offer e).pending = some e := rfl
  have hle := h.not_behind hfree
  refine ⟨?_, ?_, by simp [unanswered, hlog, hpending, hle]⟩
  · rcases Nat.lt_or_ge y.log.length x.log.length with hlt | hge
    · rw [onTheWay_ahead hlt, onTheWay_ahead (by rwa [hlog])]
    · rw [onTheWay_level (by rw [hlog]; omega), onTheWay_level (x := x) (y := y) (by omega)]
  · rcases Nat.lt_or_ge y.log.length x.log.length with hlt | hge
    · rw [onTheWay_behind (by rwa [hlog]), onTheWay_behind hlt, hfree, hpending, hlog]
      simp
    · rw [onTheWay_level (by rw [hlog]; omega), onTheWay_level (x := y) (y := x) (by omega),
        hfree, hpending, hlog]
      rfl

end

theorem onTheWay_accept (hfree : x.pending = none) (hlog : x.log = y.log)
    (hpending : y.pending = some e) :
    onTheWay (x.accept e) y = [] ∧
      onTheWay y (x.accept e) = onTheWay y x ++ [.receipt x.log.length e] ∧
      unanswered y x = true ∧ unanswered y (x.accept e) = false := by
  have haccept : (x.accept e).log = y.log ++ [e] := by rw [Side.accept, hlog]
  refine ⟨onTheWay_ahead (by simp [haccept]), ?_, ?_, ?_⟩
  · rw [onTheWay_behind (by simp [haccept]), onTheWay_level (congrArg List.length hlog.symm),
      hpending, hfree, hlog]
    simp [Side.accept, hfree]
  · simp [unanswered, hlog, hpending]
  · simp [unanswered, haccept]

theorem onTheWay_commit (hlog : y.log = x.log ++ [e]) :
    onTheWay y (x.commit e) = onTheWay y x ∧ unanswered x y = false ∧
      unanswered y (x.commit e) = unanswered y x := by
  have hcommit : (x.commit e).log = y.log := hlog.symm
  refine ⟨?_, by simp [unanswered, hlog], ?_⟩
  · rw [onTheWay_level (by rw [hcommit]), onTheWay_ahead (by simp [hlog])]
    rfl
  · simp [unanswered, hcommit, hlog]

end InStep

end

end Foundation.Handshake
