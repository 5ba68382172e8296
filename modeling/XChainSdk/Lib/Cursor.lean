import XChainSdk.Lib.Checks

/-!
# Readers of token lists

A reader takes tokens off the front of a list and ends with a value or an error.

* `Cursor.Reads p w a` : `p` reads the tokens `w` as `a`, whatever follows them.
* `Cursor.Exact p` : what `p` accepts it reads without looking past it, with the rules for the
  readers that are built from such readers.
* `Cursor.eq_of_atEnd` : **a reader that must end at the last token accepts no proper prefix and
  no proper extension of what it accepts**.
-/

namespace Cursor

/-- A reader of tokens. -/
abbrev Reader (τ ε : Type) := StateT (List τ) (Except ε)

variable {τ ε α β : Type}

/-- `n` tokens; an error when there are fewer. -/
def take (n : ℕ) (e : ε) : Reader τ ε (List τ) := fun xs =>
  if xs.length < n then .error e else .ok (xs.take n, xs.drop n)

/-- A check that reads nothing. -/
def check (x : Except ε α) : Reader τ ε α := fun xs => x.map fun a => (a, xs)

/-- The end of the tokens. -/
def atEnd (e : ε) : Reader τ ε Unit := fun xs => if xs = [] then .ok ((), []) else .error e

/-- `n` readings in turn, numbered from `k`. -/
def times (f : ℕ → Reader τ ε α) : ℕ → ℕ → Reader τ ε (List α)
  | 0, _ => pure []
  | n + 1, k => do
    let a ← f k
    let as ← times f n (k + 1)
    return a :: as

/-- The tokens `w` are read as `a`, whatever follows them. -/
def Reads (p : Reader τ ε α) (w : List τ) (a : α) : Prop := ∀ ys, p (w ++ ys) = .ok (a, ys)

/-- Whatever is accepted is read without looking at what follows. -/
def Exact (p : Reader τ ε α) : Prop :=
  ∀ xs a rest, p xs = .ok (a, rest) → ∃ w, xs = w ++ rest ∧ Reads p w a

variable {p : Reader τ ε α} {f : α → Reader τ ε β} {w v xs : List τ} {a : α} {b : β} {e : ε}

theorem bind_eq_ok {out : β × List τ} :
    (p >>= f) xs = .ok out ↔ ∃ a rest, p xs = .ok (a, rest) ∧ f a rest = .ok out := by
  change ((p xs) >>= fun r => f r.1 r.2) = .ok out ↔ _
  rw [Checks.bind_eq_ok]
  constructor
  · rintro ⟨⟨a, rest⟩, h, h'⟩
    exact ⟨a, rest, h, h'⟩
  · rintro ⟨a, rest, h, h'⟩
    exact ⟨(a, rest), h, h'⟩

theorem check_eq_ok {x : Except ε α} {out : α × List τ} :
    (check x : Reader τ ε α) xs = .ok out ↔ x = .ok out.1 ∧ out.2 = xs := by
  obtain ⟨b, rest⟩ := out
  cases x with
  | error e =>
    constructor
    · intro h; cases h
    · rintro ⟨h, -⟩; cases h
  | ok a =>
    constructor
    · intro h; cases h; exact ⟨rfl, rfl⟩
    · rintro ⟨h, rfl⟩; cases h; rfl

/-- Every value of readings in turn is the value of one reading. -/
theorem forall_of_times {P : α → Prop} {f : ℕ → Reader τ ε α}
    (hf : ∀ k xs a rest, f k xs = .ok (a, rest) → P a) {n k : ℕ} {as : List α} {rest : List τ}
    (h : times f n k xs = .ok (as, rest)) : ∀ a ∈ as, P a := by
  induction n generalizing k xs as rest with
  | zero =>
    cases h
    intro a ha
    cases ha
  | succ n ih =>
    obtain ⟨a, mid, ha, h⟩ := bind_eq_ok.1 h
    obtain ⟨as', mid', has, h⟩ := bind_eq_ok.1 h
    cases h
    intro b hb
    rcases List.mem_cons.1 hb with rfl | hb
    · exact hf _ _ _ _ ha
    · exact ih has b hb

/-! ### What is read back -/

namespace Reads

theorem pure (a : α) : Reads (Pure.pure a : Reader τ ε α) [] a := fun _ => rfl

theorem bind (hp : Reads p w a) (hf : Reads (f a) v b) : Reads (p >>= f) (w ++ v) b := by
  intro ys
  rw [List.append_assoc]
  exact bind_eq_ok.2 ⟨a, v ++ ys, hp _, hf ys⟩

theorem take {n : ℕ} (h : w.length = n) : Reads (Cursor.take n e) w w := by
  intro ys
  rw [Cursor.take, if_neg (by rw [List.length_append]; omega), List.take_left' h, List.drop_left' h]

theorem check {x : Except ε α} (h : x = .ok a) : Reads (Cursor.check x : Reader τ ε α) [] a := by
  intro ys
  rw [h]
  rfl

theorem bind_check {x : Except ε α} (h : x = .ok a) (hf : Reads (f a) v b) :
    Reads (Cursor.check x >>= f) v b := (check h).bind hf

theorem bind_pure {g : α → β} (hp : Reads p w a) :
    Reads (do let x ← p; return g x : Reader τ ε β) w (g a) := by
  have h := hp.bind (f := fun x => Pure.pure (g x)) (pure _)
  rwa [List.append_nil] at h

/-- Readings in turn read the tokens of each in turn. -/
theorem times {γ : Type} {f : ℕ → Reader τ ε α} {write : γ → List τ} {value : γ → α} {cs : List γ}
    (k : ℕ) (h : ∀ c ∈ cs, ∀ i, Reads (f i) (write c) (value c)) :
    Reads (Cursor.times f cs.length k) (cs.flatMap write) (cs.map value) := by
  induction cs generalizing k with
  | nil => exact pure _
  | cons c cs ih =>
    have hrest := ih (k + 1) fun d hd => h d (List.mem_cons_of_mem _ hd)
    exact (h c (List.mem_cons_self ..) k).bind (bind_pure hrest)

end Reads

/-! ### Readers that do not look ahead -/

namespace Exact

theorem pure (a : α) : Exact (Pure.pure a : Reader τ ε α) := by
  intro xs b rest h
  cases h
  exact ⟨[], rfl, Reads.pure a⟩

theorem throw (e : ε) : Exact (fun _ => .error e : Reader τ ε α) := by
  intro xs a rest h
  cases h

theorem bind (hp : Exact p) (hf : ∀ a, Exact (f a)) : Exact (p >>= f) := by
  intro xs b rest h
  obtain ⟨a, mid, h1, h2⟩ := bind_eq_ok.1 h
  obtain ⟨w, rfl, hw⟩ := hp _ _ _ h1
  obtain ⟨v, rfl, hv⟩ := hf a _ _ _ h2
  exact ⟨w ++ v, by rw [List.append_assoc], hw.bind hv⟩

theorem ite {c : Prop} [Decidable c] {q : Reader τ ε α} (hp : Exact p) (hq : Exact q) :
    Exact (if c then p else q) := by
  split_ifs
  · exact hp
  · exact hq

theorem take (n : ℕ) (e : ε) : Exact (Cursor.take n e : Reader τ ε (List τ)) := by
  intro xs a rest h
  rw [Cursor.take] at h
  split_ifs at h with hlen
  cases h
  exact ⟨xs.take n, (List.take_append_drop n xs).symm, Reads.take (by rw [List.length_take]; omega)⟩

theorem check (x : Except ε α) : Exact (Cursor.check x : Reader τ ε α) := by
  intro xs a rest h
  cases x with
  | error e => cases h
  | ok b =>
    cases h
    exact ⟨[], rfl, Reads.check rfl⟩

theorem times {f : ℕ → Reader τ ε α} (hf : ∀ k, Exact (f k)) (n k : ℕ) :
    Exact (Cursor.times f n k) := by
  induction n generalizing k with
  | zero => exact pure _
  | succ n ih => exact (hf k).bind fun a => (ih (k + 1)).bind fun as => pure _

end Exact

/-! ### Readers that must end at the last token -/

theorem bind_atEnd_eq_ok {e : ε} {rest : List τ} :
    (do let a ← p; atEnd e; return a : Reader τ ε α) xs = .ok (a, rest) ↔
      p xs = .ok (a, []) ∧ rest = [] := by
  constructor
  · intro h
    obtain ⟨b, mid, hp, h⟩ := bind_eq_ok.1 h
    obtain ⟨u, end', hend, h⟩ := bind_eq_ok.1 h
    cases h
    rw [atEnd] at hend
    split_ifs at hend with hnil
    cases hend
    exact ⟨hnil ▸ hp, rfl⟩
  · rintro ⟨hp, rfl⟩
    exact bind_eq_ok.2 ⟨a, [], hp, rfl⟩

/-- **Of two accepted token lists none is a proper prefix of the other.** -/
theorem eq_of_atEnd {e : ε} {ys : List τ} {out out' : α × List τ} (hp : Exact p)
    (hxs : (do let a ← p; atEnd e; return a : Reader τ ε α) xs = .ok out)
    (hys : (do let a ← p; atEnd e; return a : Reader τ ε α) ys = .ok out') (hpre : xs <+: ys) :
    xs = ys := by
  obtain ⟨a, rest⟩ := out
  obtain ⟨b, rest'⟩ := out'
  obtain ⟨w, hw, hread⟩ := hp _ _ _ (bind_atEnd_eq_ok.1 hxs).1
  rw [List.append_nil] at hw
  subst hw
  obtain ⟨zs, rfl⟩ := hpre
  have h := (bind_atEnd_eq_ok.1 hys).1
  rw [hread zs] at h
  cases h
  rw [List.append_nil]

end Cursor
