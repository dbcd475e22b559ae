import Mathlib.Data.List.Basic

/-!
# Dialogues

Two programs that block, joined by a pipe in each direction. A call transfers any positive number of
the bytes that were asked for. A program follows a script when all calls it can make on the way are
those of the script, however the bytes of a call are split. If the scripts of both programs can be
merged so that each byte is written before it is read, then no order in which the calls are made gets
stuck or leaves the scripts.
-/

namespace LeanLibp2p.Lib

variable {β ε α γ : Type}
variable (data : List β)
variable (side : Bool)

/-- A program that calls a byte stream. The program is the body of a loop where it ends with
    `again`. -/
inductive Proc (β ε α : Type) where
  | ret (a : α)
  | fail (e : ε)
  | again
  | read (len : Nat) (k : Except ε (List β) → Proc β ε α)
  | write (data : List β) (k : Except ε Nat → Proc β ε α)

namespace Proc

def bind : Proc β ε α → (α → Proc β ε γ) → Proc β ε γ
  | ret a, f => f a
  | fail e, _ => fail e
  | again, _ => again
  | read len k, f => read len fun r => (k r).bind f
  | write data k, f => write data fun r => (k r).bind f

instance : Monad (Proc β ε) where
  pure := ret
  bind := bind

/-- End with a result that was computed without a call. -/
def ofResult : Except ε α → Proc β ε α
  | .ok a => ret a
  | .error e => fail e

/-- Go round the loop with this body. -/
def unloop : Proc β ε α → Proc β ε α → Proc β ε α
  | again, body => body
  | p, _ => p

/-- The program waits for bytes. -/
def Waiting : Proc β ε α → Prop
  | read _ _ => True
  | _ => False

/-- The program has returned. -/
def Ended : Proc β ε α → Prop
  | ret _ | fail _ => True
  | _ => False

@[simp] theorem ret_bind (a : α) (f : α → Proc β ε γ) : (ret a >>= f) = f a := rfl

@[simp] theorem fail_bind (e : ε) (f : α → Proc β ε γ) : ((fail e : Proc β ε α) >>= f) = fail e := rfl

@[simp] theorem ofResult_ok_bind (a : α) (f : α → Proc β ε γ) :
    (ofResult (.ok a) >>= f) = f a := rfl

@[simp] theorem read_bind (len : Nat) (k : Except ε (List β) → Proc β ε α) (f : α → Proc β ε γ) :
    (read len k >>= f) = read len fun r => k r >>= f := rfl

@[simp] theorem write_bind (k : Except ε Nat → Proc β ε α) (f : α → Proc β ε γ) :
    (write data k >>= f) = write data fun r => k r >>= f := rfl

@[simp] theorem unloop_ret (body : Proc β ε α) (a : α) : (ret a).unloop body = ret a := rfl

@[simp] theorem unloop_fail (body : Proc β ε α) (e : ε) : (fail e).unloop body = fail e := rfl

@[simp] theorem unloop_again (body : Proc β ε α) : again.unloop body = body := rfl

@[simp] theorem unloop_read (body : Proc β ε α) (len : Nat) (k : Except ε (List β) → Proc β ε α) :
    (read len k).unloop body = read len k := rfl

@[simp] theorem unloop_write (body : Proc β ε α) (data : List β) (k : Except ε Nat → Proc β ε α) :
    (write data k).unloop body = write data k := rfl

end Proc

/-! ## Scripts -/

/-- A byte that a program writes or reads. -/
inductive Event (β : Type) where
  | put (b : β)
  | get (b : β)
  deriving DecidableEq, Repr

namespace Event

def puts (data : List β) : List (Event β) := data.map put

def gets (data : List β) : List (Event β) := data.map get

/-- The bytes that a script writes. -/
def sent : List (Event β) → List β
  | [] => []
  | put b :: s => b :: sent s
  | get _ :: s => sent s

/-- The bytes that a script reads. -/
def received : List (Event β) → List β
  | [] => []
  | put _ :: s => received s
  | get b :: s => b :: received s

@[simp] theorem sent_append (s s' : List (Event β)) : sent (s ++ s') = sent s ++ sent s' := by
  induction s with
  | nil => rfl
  | cons e s ih => cases e <;> simp [sent, ih]

@[simp] theorem received_append (s s' : List (Event β)) :
    received (s ++ s') = received s ++ received s' := by
  induction s with
  | nil => rfl
  | cons e s ih => cases e <;> simp [received, ih]

@[simp] theorem sent_puts : sent (puts data) = data := by
  induction data with
  | nil => rfl
  | cons b data ih => simpa [puts, sent] using ih

@[simp] theorem sent_gets : sent (gets data) = [] := by
  induction data with
  | nil => rfl
  | cons b data ih => simpa [gets, sent] using ih

@[simp] theorem received_gets : received (gets data) = data := by
  induction data with
  | nil => rfl
  | cons b data ih => simpa [gets, received] using ih

@[simp] theorem received_puts : received (puts data) = [] := by
  induction data with
  | nil => rfl
  | cons b data ih => simpa [puts, received] using ih

@[simp] theorem length_puts : (puts data).length = data.length := List.length_map ..

@[simp] theorem length_gets : (gets data).length = data.length := List.length_map ..

@[simp] theorem puts_nil : puts ([] : List β) = [] := rfl

@[simp] theorem gets_nil : gets ([] : List β) = [] := rfl

theorem puts_append (data data' : List β) : puts (data ++ data') = puts data ++ puts data' :=
  List.map_append

theorem gets_append (data data' : List β) : gets (data ++ data') = gets data ++ gets data' :=
  List.map_append

theorem puts_split (n : Nat) : puts data = puts (data.take n) ++ puts (data.drop n) := by
  rw [← puts_append, List.take_append_drop]

theorem gets_split (n : Nat) : gets data = gets (data.take n) ++ gets (data.drop n) := by
  rw [← gets_append, List.take_append_drop]

end Event

open Event

/-- The program makes the calls of the script, and returns `a`. -/
inductive Proc.Says : Proc β ε α → List (Event β) → α → Prop
  | ret (a : α) : Says (.ret a) [] a
  | read {len : Nat} {k : Except ε (List β) → Proc β ε α} {data : List β} {s : List (Event β)} {a : α} :
      data.length = len → 0 < len →
      (∀ n, 0 < n → n ≤ len → Says (k (.ok (data.take n))) (gets (data.drop n) ++ s) a) →
      Says (.read len k) (gets data ++ s) a
  | write {data : List β} {k : Except ε Nat → Proc β ε α} {s : List (Event β)} {a : α} :
      data ≠ [] →
      (∀ n, 0 < n → n ≤ data.length → Says (k (.ok n)) (puts (data.drop n) ++ s) a) →
      Says (.write data k) (puts data ++ s) a

/-- The program makes the calls of the script and comes to where `E` holds; `body` is that of its
    loop. -/
inductive Proc.Follows (body : Proc β ε α) (E : Proc β ε α → Prop) :
    Proc β ε α → List (Event β) → Prop
  | stop {p : Proc β ε α} : E p → Follows body E p []
  | read {len : Nat} {k : Except ε (List β) → Proc β ε α} {data : List β} {s : List (Event β)} :
      data.length = len → 0 < len →
      (∀ n, 0 < n → n ≤ len →
        Follows body E ((k (.ok (data.take n))).unloop body) (gets (data.drop n) ++ s)) →
      Follows body E (.read len k) (gets data ++ s)
  | write {data : List β} {k : Except ε Nat → Proc β ε α} {s : List (Event β)} :
      data ≠ [] →
      (∀ n, 0 < n → n ≤ data.length →
        Follows body E ((k (.ok n)).unloop body) (puts (data.drop n) ++ s)) →
      Follows body E (.write data k) (puts data ++ s)

namespace Proc

variable {p : Proc β ε α} {body : Proc β ε α} {E : Proc β ε α → Prop} {s s' : List (Event β)} {a : α}

theorem Says.bind {f : α → Proc β ε γ} {c : γ} (h : Says p s a) (hf : Says (f a) s' c) :
    Says (p >>= f) (s ++ s') c := by
  induction h with
  | ret a => exact hf
  | read hlen hpos _ ih =>
    rw [List.append_assoc]
    refine .read hlen hpos fun n hn hle => ?_
    rw [← List.append_assoc]
    exact ih n hn hle hf
  | write hdata _ ih =>
    rw [List.append_assoc]
    refine .write hdata fun n hn hle => ?_
    rw [← List.append_assoc]
    exact ih n hn hle hf

/-- The end of a program makes no call. -/
theorem Says.bindRet {f : α → Proc β ε γ} {c : γ} (h : Says p s a) (hf : f a = .ret c) :
    Says (p >>= f) s c := by
  have hall : Says (p >>= f) (s ++ []) c := by
    refine h.bind ?_
    rw [hf]
    exact .ret c
  rwa [List.append_nil] at hall

/-- A call and the calls that go on with it. -/
theorem Says.readAll {len : Nat} {k : Except ε (List β) → Proc β ε α} {data : List β}
    (hlen : data.length = len) (hpos : 0 < len)
    (h : ∀ n, 0 < n → n ≤ len → Says (k (.ok (data.take n))) (gets (data.drop n)) a) :
    Says (.read len k) (gets data) a := by
  have hread : Says (.read len k) (gets data ++ []) a := by
    refine .read hlen hpos fun n hn hle => ?_
    rw [List.append_nil]
    exact h n hn hle
  rwa [List.append_nil] at hread

theorem Says.writeAll {data : List β} {k : Except ε Nat → Proc β ε α} (hdata : data ≠ [])
    (h : ∀ n, 0 < n → n ≤ data.length → Says (k (.ok n)) (puts (data.drop n)) a) :
    Says (.write data k) (puts data) a := by
  have hwrite : Says (.write data k) (puts data ++ []) a := by
    refine .write hdata fun n hn hle => ?_
    rw [List.append_nil]
    exact h n hn hle
  rwa [List.append_nil] at hwrite

/-- A part of a program that says its lines, and the rest that follows its script. -/
theorem Says.follows {γ : Type} {body : Proc β ε γ} {E : Proc β ε γ → Prop} {f : α → Proc β ε γ}
    (h : Says p s a) (hf : Follows body E ((f a).unloop body) s') :
    Follows body E ((p >>= f).unloop body) (s ++ s') := by
  induction h with
  | ret a => exact hf
  | read hlen hpos _ ih =>
    rw [List.append_assoc]
    refine .read hlen hpos fun n hn hle => ?_
    rw [← List.append_assoc]
    exact ih n hn hle hf
  | write hdata _ ih =>
    rw [List.append_assoc]
    refine .write hdata fun n hn hle => ?_
    rw [← List.append_assoc]
    exact ih n hn hle hf

/-- The last part of a program. -/
theorem Says.followsEnd {γ : Type} {body : Proc β ε γ} {E : Proc β ε γ → Prop} {f : α → Proc β ε γ}
    (h : Says p s a) (hE : E ((f a).unloop body)) : Follows body E ((p >>= f).unloop body) s := by
  have hall : Follows body E ((p >>= f).unloop body) (s ++ []) := h.follows (.stop hE)
  rwa [List.append_nil] at hall

/-- At the end of its script a program has come to where it should. -/
theorem Follows.of_nil (h : Follows body E p []) : E p := by
  generalize hs : ([] : List (Event β)) = s at h
  cases h with
  | stop hE => exact hE
  | read hlen hpos _ =>
    have hnil := congrArg List.length hs
    simp [gets] at hnil
    omega
  | write hdata _ =>
    have hnil := congrArg List.length hs
    have hpos := List.length_pos_of_ne_nil hdata
    simp [puts] at hnil
    omega

/-- A program that has returned is at the end of its script. -/
theorem Follows.nil_of_ended (h : Follows body E p s) (hp : p.Ended) : s = [] := by
  cases h with
  | stop _ => rfl
  | read _ _ _ => cases hp
  | write _ _ => cases hp

theorem Follows.read_cases {len : Nat} {k : Except ε (List β) → Proc β ε α}
    (h : Follows body E (.read len k) s) :
    (s = [] ∧ E (.read len k)) ∨
    ∃ data s', s = gets data ++ s' ∧ data.length = len ∧ 0 < len ∧
      ∀ n, 0 < n → n ≤ len →
        Follows body E ((k (.ok (data.take n))).unloop body) (gets (data.drop n) ++ s') := by
  cases h with
  | stop hE => exact .inl ⟨rfl, hE⟩
  | read hlen hpos hk => exact .inr ⟨_, _, rfl, hlen, hpos, hk⟩

theorem Follows.write_cases {data : List β} {k : Except ε Nat → Proc β ε α}
    (h : Follows body E (.write data k) s) :
    (s = [] ∧ E (.write data k)) ∨
    ∃ s', s = puts data ++ s' ∧ data ≠ [] ∧
      ∀ n, 0 < n → n ≤ data.length →
        Follows body E ((k (.ok n)).unloop body) (puts (data.drop n) ++ s') := by
  cases h with
  | stop hE => exact .inl ⟨rfl, hE⟩
  | write hdata hk => exact .inr ⟨_, rfl, hdata, hk⟩

/-- The next line of the script tells the call. -/
theorem Follows.next_put {b : β} (h : Follows body E p (.put b :: s)) :
    ∃ data k, p = .write data k ∧ data ≠ [] := by
  generalize hs : Event.put b :: s = script at h
  cases h with
  | stop _ => cases hs
  | @read len k data s' hlen hpos _ =>
    cases data with
    | nil =>
      rw [← hlen] at hpos
      cases hpos
    | cons c data => cases hs
  | @write data k s' hdata _ => exact ⟨_, _, rfl, hdata⟩

theorem Follows.next_get {b : β} (h : Follows body E p (.get b :: s)) :
    ∃ len k, p = .read len k ∧ 0 < len := by
  generalize hs : Event.get b :: s = script at h
  cases h with
  | stop _ => cases hs
  | @read len k data s' hlen hpos _ => exact ⟨_, _, rfl, hpos⟩
  | @write data k s' hdata _ =>
    cases data with
    | nil => exact absurd rfl hdata
    | cons c data => cases hs

end Proc

/-! ## Schedules -/

/-- The lines of both programs in an order in which they can be said; `true` is the left one. -/
abbrev Schedule (β : Type) := List (Bool × Event β)

namespace Schedule

/-- The script of one side. -/
def of (side : Bool) : Schedule β → List (Event β)
  | [] => []
  | (who, e) :: S => if who = side then e :: of side S else of side S

/-- The sides change their names. -/
def swap : Schedule β → Schedule β
  | [] => []
  | (who, e) :: S => (!who, e) :: swap S

/-- No byte is read before it is written, with `a` bytes on their way to the right and `b` to the
    left. -/
def Valid : Schedule β → Nat → Nat → Prop
  | [], _, _ => True
  | (true, .put _) :: S, a, b => Valid S (a + 1) b
  | (true, .get _) :: S, a, b => 0 < b ∧ Valid S a (b - 1)
  | (false, .put _) :: S, a, b => Valid S a (b + 1)
  | (false, .get _) :: S, a, b => 0 < a ∧ Valid S (a - 1) b

variable {S : Schedule β} {a b : Nat}

@[simp] theorem of_nil : of side ([] : Schedule β) = [] := rfl

@[simp] theorem of_cons_self (e : Event β) (S : Schedule β) :
    of side ((side, e) :: S) = e :: of side S := if_pos rfl

@[simp] theorem of_cons_not (e : Event β) (S : Schedule β) :
    of side ((!side, e) :: S) = of side S := by
  cases side <;> rfl

@[simp] theorem of_append (S S' : Schedule β) : of side (S ++ S') = of side S ++ of side S' := by
  induction S with
  | nil => rfl
  | cons x S ih =>
    obtain ⟨who, e⟩ := x
    by_cases hwho : who = side <;> simp [of, hwho, ih]

@[simp] theorem of_swap (S : Schedule β) : of side S.swap = of (!side) S := by
  induction S with
  | nil => rfl
  | cons x S ih =>
    obtain ⟨who, e⟩ := x
    cases who <;> cases side <;> simp [swap, of, ih]

@[simp] theorem length_swap (S : Schedule β) : S.swap.length = S.length := by
  induction S with
  | nil => rfl
  | cons x S ih => simp [swap, ih]

theorem swap_swap (S : Schedule β) : S.swap.swap = S := by
  induction S with
  | nil => rfl
  | cons x S ih => simp [swap, ih]

theorem Valid.mono {a' b' : Nat} (h : S.Valid a b) (ha : a ≤ a') (hb : b ≤ b') :
    S.Valid a' b' := by
  induction S generalizing a b a' b' with
  | nil => trivial
  | cons x S ih =>
    obtain ⟨who, e⟩ := x
    cases who <;> cases e <;> simp only [Valid] at h ⊢
    · exact ih h ha (by omega)
    · exact ⟨by omega, ih h.2 (by omega) hb⟩
    · exact ih h (by omega) hb
    · exact ⟨by omega, ih h.2 ha (by omega)⟩

theorem Valid.swap (h : S.Valid a b) : S.swap.Valid b a := by
  induction S generalizing a b with
  | nil => trivial
  | cons x S ih =>
    obtain ⟨who, e⟩ := x
    cases who <;> cases e <;> simp only [Valid, Schedule.swap, Bool.not_true, Bool.not_false] at h ⊢
    · exact ih h
    · exact ⟨h.1, ih h.2⟩
    · exact ih h
    · exact ⟨h.1, ih h.2⟩

/-- The left side can say its next line before what the right side says first: a byte that it writes
    is there earlier, and one that it reads was there before. -/
theorem exists_left {e : Event β} {s : List (Event β)} (h : of true S = e :: s) :
    ∃ S' : Schedule β, of true S' = s ∧ of false S' = of false S ∧ S'.length + 1 = S.length ∧
      ∀ a b, S.Valid a b → match e with
        | .put _ => S'.Valid (a + 1) b
        | .get _ => 0 < b → S'.Valid a (b - 1) := by
  induction S with
  | nil => cases h
  | cons x S ih =>
    obtain ⟨who, e'⟩ := x
    cases who with
    | true =>
      obtain ⟨rfl, rfl⟩ := List.cons.inj h
      refine ⟨S, rfl, rfl, rfl, fun a b hvalid => ?_⟩
      cases e' with
      | put c => exact hvalid
      | get c => exact fun _ => hvalid.2
    | false =>
      obtain ⟨S', hleft, hright, hlen, hvalid'⟩ := ih h
      refine ⟨(false, e') :: S', hleft, congrArg (e' :: ·) hright, by simp [hlen], ?_⟩
      intro a b hvalid
      cases e' with
      | put c =>
        have hrest := hvalid' a (b + 1) hvalid
        cases e with
        | put c' => exact hrest
        | get c' =>
          intro hb
          have hmore := hrest (by omega)
          change Valid S' a (b - 1 + 1)
          rwa [Nat.sub_add_cancel hb]
      | get c =>
        have hrest := hvalid' (a - 1) b hvalid.2
        have ha := hvalid.1
        cases e with
        | put c' =>
          refine ⟨by omega, ?_⟩
          rwa [Nat.sub_add_cancel ha] at hrest
        | get c' => exact fun hb => ⟨ha, hrest hb⟩

/-- The left side writes some bytes. -/
theorem exists_puts {data : List β} {s : List (Event β)} (h : of true S = puts data ++ s) :
    ∃ S' : Schedule β, of true S' = s ∧ of false S' = of false S ∧
      S'.length + data.length = S.length ∧
      ∀ a b, S.Valid a b → S'.Valid (a + data.length) b := by
  induction data generalizing S with
  | nil => exact ⟨S, h, rfl, rfl, fun _ _ hvalid => hvalid⟩
  | cons c data ih =>
    obtain ⟨S₁, hleft, hright, hlen, hvalid⟩ := exists_left (S := S) h
    obtain ⟨S', hleft', hright', hlen', hvalid'⟩ := ih hleft
    refine ⟨S', hleft', hright'.trans hright, ?_, ?_⟩
    · rw [List.length_cons]
      omega
    · intro a b h
      have hall := hvalid' (a + 1) b (hvalid a b h)
      rw [List.length_cons]
      rwa [Nat.add_assoc, Nat.add_comm 1] at hall

/-- The left side reads some bytes that are there. -/
theorem exists_gets {data : List β} {s : List (Event β)} (h : of true S = gets data ++ s) :
    ∃ S' : Schedule β, of true S' = s ∧ of false S' = of false S ∧
      S'.length + data.length = S.length ∧
      ∀ a b, S.Valid a b → data.length ≤ b → S'.Valid a (b - data.length) := by
  induction data generalizing S with
  | nil => exact ⟨S, h, rfl, rfl, fun _ _ hvalid _ => hvalid⟩
  | cons c data ih =>
    obtain ⟨S₁, hleft, hright, hlen, hvalid⟩ := exists_left (S := S) h
    obtain ⟨S', hleft', hright', hlen', hvalid'⟩ := ih hleft
    refine ⟨S', hleft', hright'.trans hright, ?_, ?_⟩
    · rw [List.length_cons]
      omega
    · intro a b h hb
      rw [List.length_cons] at hb ⊢
      have hall := hvalid' a (b - 1) (hvalid a b h (by omega)) (by omega)
      rwa [Nat.sub_sub, Nat.add_comm 1] at hall

/-! ### Lines -/

/-- Some lines of one side. -/
def lines (side : Bool) (s : List (Event β)) : Schedule β := s.map fun e => (side, e)

@[simp] theorem of_lines_self (s : List (Event β)) : of side (lines side s) = s := by
  induction s with
  | nil => rfl
  | cons e s ih => simpa [lines] using ih

@[simp] theorem of_true_lines (s : List (Event β)) : of true (lines false s) = [] := by
  induction s with
  | nil => rfl
  | cons e s ih => simpa [lines, of] using ih

@[simp] theorem of_false_lines (s : List (Event β)) : of false (lines true s) = [] := by
  induction s with
  | nil => rfl
  | cons e s ih => simpa [lines, of] using ih

theorem Valid.putsLeft {data : List β} (h : S.Valid (a + data.length) b) :
    Valid (lines true (puts data) ++ S) a b := by
  induction data generalizing a with
  | nil => exact h
  | cons c data ih =>
    refine ih (a := a + 1) ?_
    rwa [Nat.add_assoc, Nat.add_comm 1]

theorem Valid.getsLeft {data : List β} (h : S.Valid a b) :
    Valid (lines true (gets data) ++ S) a (b + data.length) := by
  induction data generalizing b with
  | nil => exact h
  | cons c data ih =>
    refine ⟨Nat.succ_pos _, ?_⟩
    have hrest := ih h
    rwa [List.length_cons, ← Nat.add_assoc, Nat.add_sub_cancel]

theorem Valid.putsRight {data : List β} (h : S.Valid a (b + data.length)) :
    Valid (lines false (puts data) ++ S) a b := by
  induction data generalizing b with
  | nil => exact h
  | cons c data ih =>
    refine ih (b := b + 1) ?_
    rwa [Nat.add_assoc, Nat.add_comm 1]

theorem Valid.getsRight {data : List β} (h : S.Valid a b) :
    Valid (lines false (gets data) ++ S) (a + data.length) b := by
  induction data generalizing a with
  | nil => exact h
  | cons c data ih =>
    refine ⟨Nat.succ_pos _, ?_⟩
    have hrest := ih h
    rwa [List.length_cons, ← Nat.add_assoc, Nat.add_sub_cancel]

end Schedule

/-! ## Two programs -/

/-- One of the two programs, with the bytes it has written and the other has not read yet. -/
structure Party (β ε α : Type) where
  proc : Proc β ε α
  body : Proc β ε α
  outbox : List β
  /-- All bytes that the program has written. -/
  written : List β
  /-- What was written once the program had returned. -/
  later : List β

/-- A program that starts. -/
def Party.start (p body : Proc β ε α) : Party β ε α := ⟨p.unloop body, body, [], [], []⟩

/-- A call of one party transfers some of the bytes it asks for. -/
inductive Party.Call : Party β ε α → Party β ε α → Party β ε α → Party β ε α → Prop
  | read {me peer : Party β ε α} {len n : Nat} {k : Except ε (List β) → Proc β ε α} :
      me.proc = .read len k → 0 < n → n ≤ len → n ≤ peer.outbox.length →
      Call me peer { me with proc := (k (.ok (peer.outbox.take n))).unloop me.body }
        { peer with outbox := peer.outbox.drop n }
  | write {me peer : Party β ε α} {data : List β} {n : Nat} {k : Except ε Nat → Proc β ε α} :
      me.proc = .write data k → 0 < n → n ≤ data.length →
      Call me peer
        { me with
          proc := (k (.ok n)).unloop me.body
          outbox := me.outbox ++ data.take n
          written := me.written ++ data.take n } peer

/-- More bytes are written once a program has returned. -/
def Party.send (bytes : List β) (me : Party β ε α) : Party β ε α :=
  { me with outbox := me.outbox ++ bytes, later := me.later ++ bytes }

/-- The two programs. -/
structure Net (β ε α : Type) where
  left : Party β ε α
  right : Party β ε α

namespace Net

/-- A call of either program. -/
inductive Step : Net β ε α → Net β ε α → Prop
  | left {N : Net β ε α} {me peer : Party β ε α} :
      Party.Call N.left N.right me peer → Step N ⟨me, peer⟩
  | right {N : Net β ε α} {me peer : Party β ε α} :
      Party.Call N.right N.left me peer → Step N ⟨peer, me⟩

/-- The second net is reached from the first, with that many calls. -/
inductive Reaches : Nat → Net β ε α → Net β ε α → Prop
  | refl (N : Net β ε α) : Reaches 0 N N
  | call {n : Nat} {N N' N'' : Net β ε α} : Reaches n N N' → Step N' N'' → Reaches (n + 1) N N''
  | sendLeft {n : Nat} {N N' : Net β ε α} (bytes : List β) :
      Reaches n N N' → N'.left.proc.Ended → Reaches n N ⟨N'.left.send bytes, N'.right⟩
  | sendRight {n : Nat} {N N' : Net β ε α} (bytes : List β) :
      Reaches n N N' → N'.right.proc.Ended → Reaches n N ⟨N'.left, N'.right.send bytes⟩

end Net

/-! ## Runs by schedule -/

/-- What is left of a schedule: each party follows its part, the pipes hold what the one has written
    and the other has not read, and `wm` and `wp` are all that the parties write in the end. -/
structure Scheduled (L R : Proc β ε α → Prop) (wm wp : List β) (me peer : Party β ε α)
    (S : Schedule β) : Prop where
  mine : Proc.Follows me.body L me.proc (S.of true)
  peers : Proc.Follows peer.body R peer.proc (S.of false)
  toPeer : me.outbox ++ sent (S.of true) = received (S.of false) ++ me.later
  toMe : peer.outbox ++ sent (S.of false) = received (S.of true) ++ peer.later
  myLater : S.of true ≠ [] → me.later = []
  peersLater : S.of false ≠ [] → peer.later = []
  mineAll : me.written ++ sent (S.of true) = wm
  peersAll : peer.written ++ sent (S.of false) = wp
  valid : S.Valid me.outbox.length peer.outbox.length

namespace Scheduled

variable {L R : Proc β ε α → Prop} {wm wp : List β} {me peer me' peer' : Party β ε α} {S : Schedule β}

theorem swap (h : Scheduled L R wm wp me peer S) : Scheduled R L wp wm peer me S.swap where
  mine := by simpa using h.peers
  peers := by simpa using h.mine
  toPeer := by simpa using h.toMe
  toMe := by simpa using h.toPeer
  myLater := by simpa using h.peersLater
  peersLater := by simpa using h.myLater
  mineAll := by simpa using h.peersAll
  peersAll := by simpa using h.mineAll
  valid := h.valid.swap

/-- A call says the next lines of the party that makes it. -/
theorem call (h : Scheduled L R wm wp me peer S)
    (hend : ∀ p, L p → p.Ended ∨ p.Waiting ∧ peer.later = []) (hcall : Party.Call me peer me' peer') :
    ∃ S' : Schedule β, Scheduled L R wm wp me' peer' S' ∧ S'.length < S.length ∧
      me'.later = me.later ∧ peer'.later = peer.later := by
  cases hcall with
  | read hproc hpos hlen hbox =>
    rename_i len n k
    have hmine := h.mine
    have htoMe := h.toMe
    rw [hproc] at hmine
    rcases hmine.read_cases with ⟨hs, hE⟩ | ⟨data, s', hs, hdata, -, hk⟩
    · -- There is nothing to read at the end of the script.
      rcases hend _ hE with hended | ⟨-, hlater⟩
      · cases hended
      · rw [hs, hlater] at htoMe
        have hempty := (List.append_eq_nil_iff.mp htoMe).1
        rw [hempty] at hbox
        simp at hbox
        omega
    · rw [hs] at htoMe
      simp only [received_append, received_gets, List.append_assoc] at htoMe
      have htake : peer.outbox.take n = data.take n := by
        have hboth := congrArg (List.take n) htoMe
        rwa [List.take_append_of_le_length hbox, List.take_append_of_le_length (by omega)] at hboth
      have hdrop : peer.outbox.drop n ++ sent (S.of false) =
          data.drop n ++ (received s' ++ peer.later) := by
        have hboth := congrArg (List.drop n) htoMe
        rwa [List.drop_append_of_le_length hbox, List.drop_append_of_le_length (by omega)] at hboth
      have htaken : (data.take n).length = n := by
        rw [List.length_take]
        omega
      rw [gets_split data n, List.append_assoc] at hs
      obtain ⟨S', hleft, hright, hlen', hvalid⟩ := Schedule.exists_gets hs
      have hnonempty : S.of true ≠ [] := by
        rw [hs]
        intro hnil
        have hgets := congrArg List.length (List.append_eq_nil_iff.mp hnil).1
        rw [length_gets, htaken, List.length_nil] at hgets
        omega
      refine ⟨S', ⟨?_, ?_, ?_, ?_, ?_, ?_, ?_, ?_, ?_⟩, by omega, rfl, rfl⟩
      · rw [hleft, htake]
        exact hk n hpos hlen
      · rw [hright]
        exact h.peers
      · have htoPeer := h.toPeer
        rw [hs] at htoPeer
        rw [hleft, hright]
        simpa using htoPeer
      · rw [hleft, hright]
        simpa using hdrop
      · exact fun _ => h.myLater hnonempty
      · intro hne
        rw [hright] at hne
        exact h.peersLater hne
      · have hall := h.mineAll
        rw [hs] at hall
        rw [hleft]
        simpa using hall
      · rw [hright]
        exact h.peersAll
      · have hrest := hvalid _ _ h.valid (by omega)
        rw [htaken] at hrest
        rwa [List.length_drop]
  | write hproc hpos hlen =>
    rename_i data n k
    have hmine := h.mine
    rw [hproc] at hmine
    rcases hmine.write_cases with ⟨hs, hE⟩ | ⟨s', hs, hdata, hk⟩
    · rcases hend _ hE with hended | ⟨hwaiting, -⟩
      · cases hended
      · cases hwaiting
    · have htaken : (data.take n).length = n := by
        rw [List.length_take]
        omega
      rw [puts_split data n, List.append_assoc] at hs
      obtain ⟨S', hleft, hright, hlen', hvalid⟩ := Schedule.exists_puts hs
      have hnonempty : S.of true ≠ [] := by
        rw [hs]
        intro hnil
        have hputs := congrArg List.length (List.append_eq_nil_iff.mp hnil).1
        rw [length_puts, htaken, List.length_nil] at hputs
        omega
      refine ⟨S', ⟨?_, ?_, ?_, ?_, ?_, ?_, ?_, ?_, ?_⟩, by omega, rfl, rfl⟩
      · rw [hleft]
        exact hk n hpos hlen
      · rw [hright]
        exact h.peers
      · have htoPeer := h.toPeer
        rw [hs] at htoPeer
        rw [hleft, hright]
        simpa using htoPeer
      · have htoMe := h.toMe
        rw [hs] at htoMe
        rw [hleft, hright]
        simpa using htoMe
      · exact fun _ => h.myLater hnonempty
      · intro hne
        rw [hright] at hne
        exact h.peersLater hne
      · have hall := h.mineAll
        rw [hs] at hall
        rw [hleft]
        simpa using hall
      · rw [hright]
        exact h.peersAll
      · have hrest := hvalid _ _ h.valid
        rw [htaken] at hrest
        rwa [List.length_append, htaken]

/-- While lines are left, one of the parties can make a call. -/
theorem progress (h : Scheduled L R wm wp me peer S) (hS : S ≠ []) :
    ∃ me' peer', Party.Call me peer me' peer' ∨ Party.Call peer me peer' me' := by
  have hleft : ∀ {L R : Proc β ε α → Prop} {wm wp : List β} {me peer : Party β ε α} {e : Event β}
      {S : Schedule β}, Scheduled L R wm wp me peer ((true, e) :: S) →
      ∃ me' peer', Party.Call me peer me' peer' := by
    intro L R wm wp me peer e S h
    have hmine := h.mine
    have hvalid := h.valid
    cases e with
    | put b =>
      obtain ⟨data, k, hproc, hdata⟩ := hmine.next_put
      exact ⟨_, _, .write hproc Nat.one_pos (List.length_pos_of_ne_nil hdata)⟩
    | get b =>
      obtain ⟨len, k, hproc, hlen⟩ := hmine.next_get
      exact ⟨_, _, .read hproc Nat.one_pos hlen hvalid.1⟩
  cases S with
  | nil => exact absurd rfl hS
  | cons x S =>
    obtain ⟨who, e⟩ := x
    cases who with
    | true =>
      obtain ⟨me', peer', hcall⟩ := hleft h
      exact ⟨me', peer', .inl hcall⟩
    | false =>
      obtain ⟨peer', me', hcall⟩ := hleft h.swap
      exact ⟨me', peer', .inr hcall⟩

/-- What is written after a program has returned stands behind its lines. -/
theorem send (h : Scheduled L R wm wp me peer S) (hended : me.proc.Ended) (bytes : List β) :
    Scheduled L R wm wp (me.send bytes) peer S := by
  have hs : S.of true = [] := h.mine.nil_of_ended hended
  refine ⟨h.mine, h.peers, ?_, h.toMe, fun hne => absurd hs hne, h.peersLater, h.mineAll, h.peersAll,
    h.valid.mono ?_ (Nat.le_refl _)⟩
  · have htoPeer := h.toPeer
    rw [hs] at htoPeer ⊢
    simp only [sent, List.append_nil] at htoPeer ⊢
    change me.outbox ++ bytes = _ ++ (me.later ++ bytes)
    rw [htoPeer, List.append_assoc]
  · change _ ≤ (me.outbox ++ bytes).length
    rw [List.length_append]
    exact Nat.le_add_right ..

/-- Once all is said, both programs are where they should be, and no byte is on its way but what was
    written later. -/
theorem done (h : Scheduled L R wm wp me peer []) :
    L me.proc ∧ R peer.proc ∧ me.outbox = me.later ∧ peer.outbox = peer.later ∧
      me.written = wm ∧ peer.written = wp := by
  refine ⟨h.mine.of_nil, h.peers.of_nil, ?_, ?_, ?_, ?_⟩
  · simpa [sent, received] using h.toPeer
  · simpa [sent, received] using h.toMe
  · simpa [sent] using h.mineAll
  · simpa [sent] using h.peersAll

end Scheduled

namespace Net

variable {L R : Proc β ε α → Prop} {wl wr : List β} {N₀ N : Net β ε α} {S₀ : Schedule β} {n : Nat}

/-- A call of either program. -/
theorem Step.scheduled {S : Schedule β} {N' : Net β ε α} (hstep : Step N N')
    (h : Scheduled L R wl wr N.left N.right S)
    (hleft : ∀ p, L p → p.Ended ∨ p.Waiting ∧ N.right.later = [])
    (hright : ∀ p, R p → p.Ended ∨ p.Waiting ∧ N.left.later = []) :
    ∃ S' : Schedule β, Scheduled L R wl wr N'.left N'.right S' ∧ S'.length < S.length ∧
      N'.left.later = N.left.later ∧ N'.right.later = N.right.later := by
  cases hstep with
  | left hcall => exact h.call hleft hcall
  | right hcall =>
    obtain ⟨S', hsched, hlen, hmine, hpeers⟩ := h.swap.call hright hcall
    rw [Schedule.length_swap] at hlen
    exact ⟨S'.swap, hsched.swap, by rwa [Schedule.length_swap], hpeers, hmine⟩

/-- Two programs that return at the end of their scripts keep to the schedule in every run, and make no
    more calls than it has lines. -/
theorem Reaches.scheduled (hreach : Reaches n N₀ N)
    (h₀ : Scheduled L R wl wr N₀.left N₀.right S₀) (hleft : ∀ p, L p → p.Ended)
    (hright : ∀ p, R p → p.Ended) :
    ∃ S : Schedule β, Scheduled L R wl wr N.left N.right S ∧ S.length + n ≤ S₀.length := by
  induction hreach with
  | refl N => exact ⟨S₀, h₀, Nat.le_refl _⟩
  | call _ hstep ih =>
    obtain ⟨S, hS, hlen⟩ := ih h₀
    obtain ⟨S', hS', hlt, -, -⟩ :=
      hstep.scheduled hS (fun p hp => .inl (hleft p hp)) fun p hp => .inl (hright p hp)
    exact ⟨S', hS', by omega⟩
  | sendLeft bytes _ hended ih =>
    obtain ⟨S, hS, hlen⟩ := ih h₀
    exact ⟨S, hS.send hended bytes, hlen⟩
  | sendRight bytes _ hended ih =>
    obtain ⟨S, hS, hlen⟩ := ih h₀
    refine ⟨S, ?_, hlen⟩
    have hsent := (hS.swap.send hended bytes).swap
    rwa [Schedule.swap_swap] at hsent

/-- If the right program waits at the end of its script, every run keeps to the schedule until the left
    one has returned. -/
theorem Reaches.scheduled_or_ended (hreach : Reaches n N₀ N)
    (h₀ : Scheduled L R wl wr N₀.left N₀.right S₀) (hlater : N₀.left.later = [])
    (hleft : ∀ p, L p → p.Ended) (hright : ∀ p, R p → p.Waiting) :
    (∃ S : Schedule β, Scheduled L R wl wr N.left N.right S ∧ S.length + n ≤ S₀.length ∧
      N.left.later = []) ∨
    L N.left.proc ∧ N.left.written = wl := by
  induction hreach with
  | refl N => exact .inl ⟨S₀, h₀, Nat.le_refl _, hlater⟩
  | call _ hstep ih =>
    rcases ih h₀ hlater with ⟨S, hS, hlen, hnone⟩ | ⟨hL, hwritten⟩
    · obtain ⟨S', hS', hlt, hsame, -⟩ := hstep.scheduled hS (fun p hp => .inl (hleft p hp))
        fun p hp => .inr ⟨hright p hp, hnone⟩
      exact .inl ⟨S', hS', by omega, hsame.trans hnone⟩
    · right
      have hended := hleft _ hL
      cases hstep with
      | left hcall =>
        cases hcall with
        | read hproc _ _ _ =>
          rw [hproc] at hended
          cases hended
        | write hproc _ _ =>
          rw [hproc] at hended
          cases hended
      | right hcall =>
        cases hcall with
        | read _ _ _ _ => exact ⟨hL, hwritten⟩
        | write _ _ _ => exact ⟨hL, hwritten⟩
  | sendLeft bytes _ hended ih =>
    right
    rcases ih h₀ hlater with ⟨S, hS, -, -⟩ | hdone
    · have hs := hS.mine.nil_of_ended hended
      have hmine := hS.mine
      have hall := hS.mineAll
      rw [hs] at hmine hall
      simp only [sent, List.append_nil] at hall
      exact ⟨hmine.of_nil, hall⟩
    · exact hdone
  | sendRight bytes _ hended ih =>
    rcases ih h₀ hlater with ⟨S, hS, hlen, hnone⟩ | hdone
    · left
      refine ⟨S, ?_, hlen, hnone⟩
      have hsent := (hS.swap.send hended bytes).swap
      rwa [Schedule.swap_swap] at hsent
    · exact .inr hdone

end Net

/-! ## Any peer -/

/-- Whatever the answers are, a program that has written `w` before returns only what `P` allows. -/
def Proc.Only (P : List β → α → Prop) : List β → Proc β ε α → Prop
  | w, .ret a => P w a
  | _, .fail _ => True
  | _, .again => True
  | w, .read _ k => ∀ answer, Only P w (k answer)
  | w, .write data k => (∀ n ≤ data.length, Only P (w ++ data.take n) (k (.ok n))) ∧
      ∀ e, Only P w (k (.error e))

namespace Proc

variable {P : List β → α → Prop} {w : List β} {p : Proc β ε α}

theorem Only.mono {Q : List β → α → Prop} (h : Only P w p) (hPQ : ∀ w a, P w a → Q w a) :
    Only Q w p := by
  induction p generalizing w with
  | ret a => exact hPQ w a h
  | fail e => trivial
  | again => trivial
  | read len k ih => exact fun answer => ih answer (h answer)
  | write data k ih => exact ⟨fun n hn => ih _ (h.1 n hn), fun e => ih _ (h.2 e)⟩

theorem Only.bind {Q : List β → γ → Prop} {f : α → Proc β ε γ}
    (h : Only (fun w a => Only Q w (f a)) w p) : Only Q w (p >>= f) := by
  induction p generalizing w with
  | ret a => exact h
  | fail e => trivial
  | again => trivial
  | read len k ih => exact fun answer => ih answer (h answer)
  | write data k ih => exact ⟨fun n hn => ih _ (h.1 n hn), fun e => ih _ (h.2 e)⟩

theorem Only.unloop {body : Proc β ε α} (h : Only P w p) (hbody : Only P w body) :
    Only P w (p.unloop body) := by
  cases p with
  | again => exact hbody
  | _ => exact h

end Proc

/-- A program keeps to what it may return, whatever the other one is. -/
theorem Net.Reaches.only {P : List β → α → Prop} {n : Nat} {N₀ N : Net β ε α}
    (hreach : Net.Reaches n N₀ N) (hbody : ∀ w, N₀.right.body.Only P w)
    (h₀ : N₀.right.proc.Only P N₀.right.written) :
    N.right.proc.Only P N.right.written ∧ N.right.body = N₀.right.body := by
  induction hreach with
  | refl N => exact ⟨h₀, rfl⟩
  | call _ hstep ih =>
    obtain ⟨honly, hsame⟩ := ih hbody h₀
    cases hstep with
    | left hcall =>
      cases hcall with
      | read _ _ _ _ => exact ⟨honly, hsame⟩
      | write _ _ _ => exact ⟨honly, hsame⟩
    | right hcall =>
      cases hcall with
      | read hproc _ _ _ =>
        rw [hproc] at honly
        refine ⟨?_, hsame⟩
        rw [hsame]
        exact (honly _).unloop (hbody _)
      | write hproc _ hlen =>
        rw [hproc] at honly
        refine ⟨?_, hsame⟩
        rw [hsame]
        exact (honly.1 _ hlen).unloop (hbody _)
  | sendLeft _ _ _ ih => exact ih hbody h₀
  | sendRight _ _ _ ih => exact ih hbody h₀

end LeanLibp2p.Lib
