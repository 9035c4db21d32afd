import DriveHealth.Database.Listing
import DriveHealth.Proofs.Database.FirstMatch

/-! The display of the entries for a model against the look-up. Both go through the whole database, one
for every entry that answers and one for the first: the display starts where the look-up stops. -/
namespace DriveHealth.Database

open Listing Line

instance (e : Entry) (model : Text) : Decidable (Answers e model) :=
  decidable_of_iff _ (describes_iff e model)

/-- The entries that are shown for a model, each with its index. -/
def shown (db : Database) (model : Text) : List (Entry × Nat) :=
  db.entries.zipIdx.filter fun p => p.1.describes model

theorem shown_entries (db : Database) (model : Text) :
    (db.shown model).map Prod.fst = db.matching model := by
  have h := List.filter_map (p := fun e : Entry => e.describes model) (f := Prod.fst) (l := db.entries.zipIdx)
  rw [List.zipIdx_map_fst] at h
  exact h.symm

theorem not_describes_default {e : Entry} (h : e.family = Family.default) (model : Text) :
    e.describes model = false := by
  rw [← Bool.not_eq_true, describes_iff]
  exact fun ha => ha.1.2.2 h

/-- A search stops at the first of the entries that a filter would keep. -/
theorem search_index (model : Text) (d : Option Entry) (i : Nat) (es : List Entry) :
    (search model d i es).index.map Prod.swap =
      ((es.zipIdx i).filter fun p => p.1.describes model).head? := by
  induction es generalizing d i with
  | nil => rfl
  | cons e r ih =>
    rw [search, List.zipIdx_cons]
    by_cases hd : e.family = Family.default
    · have hn := not_describes_default hd model
      rw [if_pos hd, List.filter_cons_of_neg (by simp [hn])]
      exact ih _ _
    · rw [if_neg hd]
      by_cases ha : e.describes model = true
      · rw [if_pos ha, List.filter_cons_of_pos (by simpa using ha)]
        rfl
      · rw [if_neg ha, List.filter_cons_of_neg (by simpa using ha)]
        exact ih _ _

theorem length_matching (db : Database) (model : Text) :
    (db.matching model).length = db.entries.countP fun e => Answers e model := by
  rw [matching, ← List.countP_eq_length_filter]
  refine List.countP_congr ?_
  intro e _
  rw [describes_iff, decide_eq_true_eq]

theorem matching_eq_nil_iff (db : Database) (model : Text) :
    db.matching model = [] ↔ (db.lookup model).isMatch = false := by
  rw [← Bool.not_eq_true, lookup_isMatch_iff, matching, List.filter_eq_nil_iff]
  simp only [describes_iff, not_exists, not_and]

/-- The lines that are printed in front of the first entry for a model. -/
def foundTitle (model : Text) : Text :=
  "Drive found in drive database.  Drive identity string:\n" ++ row "MODEL:" model ++
    "match drive database entry:\n"

/-- What is printed behind the first entry for a model. -/
def additionalListing (more : List Entry) : Text :=
  onlyIf (more ≠ []) "and match these additional entries:\n" ++ Entry.listings more

theorem listingFor_eq {db : Database} {model : Text} {e : Entry} {more : List Entry}
    (h : db.matching model = e :: more) :
    db.listingFor model = foundTitle model ++ e.listing ++ "\n" ++ additionalListing more := by
  unfold listingFor foundTitle additionalListing
  simp only [h]
  exact List.append_assoc ..

end DriveHealth.Database
