import TupleNet.Lib.Txn

/-! # Clients whose store may not answer

`Prog.exec` runs a client alone on a store that answers.  Here any read or transaction may remain
without an answer: `Ends p db res` says that the client can end with `res`, which is the store in
the end and the result.  A transaction without an answer may have been carried out.  A client in two
stages is a `Prog.bind`, and what it ends with is what the second stage ends with after the first
(`ends_bind`). -/

namespace TxnStore

namespace Prog

variable {V ρ τ : Type}

/-- Go on with the result of a client. -/
def bind : Prog V ρ → (ρ → Prog V τ) → Prog V τ
  | .ret r, f => f r
  | .get key next, f => .get key (fun answer => (next answer).bind f)
  | .txn t next, f => .txn t (fun answer => (next answer).bind f)

variable (raw : V → String)

/-- The client, running alone, can end with this store and this result. -/
def Ends : Prog V ρ → Store V → Store V × ρ → Prop
  | .ret r, db, res => res = (db, r)
  | .get key next, db, res => (next (some ((db key).map raw))).Ends db res ∨ (next none).Ends db res
  | .txn t next, db, res =>
      (next .error).Ends db res ∨
        t.Accepted ∧ t.Holds raw db ∧
          ((next .succeeded).Ends (t.apply db) res ∨ (next .error).Ends (t.apply db) res) ∨
        t.Accepted ∧ ¬ t.Holds raw db ∧ (next .failed).Ends db res

/-- A store that answers is one of the possibilities. -/
theorem ends_exec (p : Prog V ρ) (db : Store V) : p.Ends raw db (p.exec raw db) := by
  induction p generalizing db with
  | ret r => rfl
  | get key next ih => exact Or.inl (ih _ db)
  | txn t next ih =>
      rw [exec]
      split_ifs with hacc hholds
      · exact Or.inr (Or.inl ⟨hacc, hholds, Or.inl (ih _ _)⟩)
      · exact Or.inr (Or.inr ⟨hacc, hholds, ih _ db⟩)
      · exact Or.inl (ih _ db)

variable {raw}

theorem ends_bind {p : Prog V ρ} {f : ρ → Prog V τ} {db : Store V} {res : Store V × τ} :
    (p.bind f).Ends raw db res ↔ ∃ db' r, p.Ends raw db (db', r) ∧ (f r).Ends raw db' res := by
  induction p generalizing db with
  | ret r =>
      constructor
      · exact fun h => ⟨db, r, rfl, h⟩
      · rintro ⟨db', r', heq, h⟩
        obtain ⟨rfl, rfl⟩ := Prod.mk.inj heq
        exact h
  | get key next ih =>
      simp only [bind, Ends, ih, or_and_right, exists_or]
  | txn t next ih =>
      simp only [bind, Ends, ih]
      constructor
      · rintro (⟨db', r, h, hf⟩ | ⟨hacc, hholds, ⟨db', r, h, hf⟩ | ⟨db', r, h, hf⟩⟩ |
          ⟨hacc, hholds, db', r, h, hf⟩)
        · exact ⟨db', r, Or.inl h, hf⟩
        · exact ⟨db', r, Or.inr (Or.inl ⟨hacc, hholds, Or.inl h⟩), hf⟩
        · exact ⟨db', r, Or.inr (Or.inl ⟨hacc, hholds, Or.inr h⟩), hf⟩
        · exact ⟨db', r, Or.inr (Or.inr ⟨hacc, hholds, h⟩), hf⟩
      · rintro ⟨db', r, h | ⟨hacc, hholds, h | h⟩ | ⟨hacc, hholds, h⟩, hf⟩
        · exact Or.inl ⟨db', r, h, hf⟩
        · exact Or.inr (Or.inl ⟨hacc, hholds, Or.inl ⟨db', r, h, hf⟩⟩)
        · exact Or.inr (Or.inl ⟨hacc, hholds, Or.inr ⟨db', r, h, hf⟩⟩)
        · exact Or.inr (Or.inr ⟨hacc, hholds, db', r, h, hf⟩)

end Prog

end TxnStore
