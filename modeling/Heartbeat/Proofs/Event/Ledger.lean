import Heartbeat.Proofs.Event.Processor
import Mathlib.Data.List.Forall2

/-!
# What becomes of every match

Every match that a processor queues is written into a ledger, in order, and what becomes of it is
noted there: it is answered when it is taken, dropped when the queue gets too long, and discarded
when its event is unregistered or replaced. The ledger is kept by these rules alone, without a look
at the queue; that the processor obeys them is what is shown.

* `EventProcessor.made`, `taken`: the matches that calls queue, and those that they take.
* `EventProcessor.ledger`: the ledger of a row of calls.
* `EventProcessor.balanced_perform`: the processor and its ledger agree behind every call.
* `EventProcessor.delivered`: every match has one ending, and the matches are answered and dropped
  in order, behind every row of calls.
-/

namespace Heartbeat

/-- What has become of a match that was queued. -/
inductive Ending where
  | waiting
  /-- It was taken for its callback. -/
  | answered
  /-- It made room for newer ones. -/
  | dropped
  /-- Its event was unregistered or replaced. -/
  | discarded
deriving Repr, DecidableEq

/-- A match that was queued, and what has become of it. -/
structure Receipt (κ : Type) where
  entry : PendingEvent κ
  ending : Ending
deriving Repr, DecidableEq

/-- The matches that were queued, the oldest first. -/
abbrev Ledger (κ : Type) := List (Receipt κ)

namespace Ledger

variable {κ : Type} {l l' : Ledger κ} {ending other : Ending}

/-- The matches with an ending. -/
def of (ending : Ending) (l : Ledger κ) : List (PendingEvent κ) :=
  (l.filter (·.ending == ending)).map Receipt.entry

/-- Matches that are queued now. -/
def queued (entries : List (PendingEvent κ)) : Ledger κ := entries.map (⟨·, .waiting⟩)

/-- Gives an ending to the oldest matches that wait, so many of them. -/
def settle (ending : Ending) : Nat → Ledger κ → Ledger κ
  | _, [] => []
  | 0, l => l
  | count + 1, r :: l =>
    if r.ending = .waiting then ⟨r.entry, ending⟩ :: settle ending count l
    else r :: settle ending (count + 1) l

/-- Discards the matches of a name that wait. -/
def discard (name : String) (l : Ledger κ) : Ledger κ :=
  l.map fun r =>
    if r.ending = .waiting ∧ r.entry.name = name then ⟨r.entry, .discarded⟩ else r

/-- **Matches are answered and dropped in order**: none is while an older one waits. -/
def InOrder (l : Ledger κ) : Prop :=
  l.Pairwise fun older newer =>
    older.ending = .waiting → newer.ending ≠ .answered ∧ newer.ending ≠ .dropped

theorem of_cons_self {r : Receipt κ} (h : r.ending = ending) :
    of ending (r :: l) = r.entry :: of ending l := by
  unfold of
  rw [List.filter_cons_of_pos (by simpa using h)]
  rfl

theorem of_cons_of_ne {r : Receipt κ} (h : r.ending ≠ ending) :
    of ending (r :: l) = of ending l := by
  unfold of
  rw [List.filter_cons_of_neg (by simpa using h)]

theorem of_append : of ending (l ++ l') = of ending l ++ of ending l' := by
  unfold of
  rw [List.filter_append, List.map_append]

theorem of_eq_nil (h : ∀ r ∈ l, r.ending ≠ ending) : of ending l = [] := by
  unfold of
  rw [List.filter_eq_nil_iff.mpr fun r hr => by simpa using h r hr, List.map_nil]

/-! ### Matches that are queued -/

section Queued

variable (entries : List (PendingEvent κ))

theorem ending_of_mem_queued {r : Receipt κ} (h : r ∈ queued entries) : r.ending = .waiting := by
  obtain ⟨entry, -, rfl⟩ := List.mem_map.mp h
  rfl

theorem entries_queued : (queued entries).map Receipt.entry = entries := by
  unfold queued
  rw [List.map_map]
  exact List.map_id entries

theorem waiting_queued : of .waiting (queued entries) = entries := by
  have hall : (queued entries).filter (·.ending == .waiting) = queued entries :=
    List.filter_eq_self.mpr fun r hr => by simpa using ending_of_mem_queued entries hr
  unfold of
  rw [hall]
  exact entries_queued entries

theorem of_queued (h : ending ≠ .waiting) : of ending (queued entries) = [] :=
  of_eq_nil fun _ hr heq => h (heq.symm.trans (ending_of_mem_queued entries hr))

theorem InOrder.append_queued (h : InOrder l) : InOrder (l ++ queued entries) := by
  have hnew : ∀ r ∈ queued entries, r.ending ≠ .answered ∧ r.ending ≠ .dropped := by
    intro r hr
    rw [ending_of_mem_queued entries hr]
    exact ⟨nofun, nofun⟩
  refine List.pairwise_append.mpr ⟨h, ?_, fun a _ b hb _ => hnew b hb⟩
  exact List.pairwise_of_forall_mem_list fun a _ b hb _ => hnew b hb

end Queued

/-! ### The oldest matches -/

section Settle

variable (ending) (count : Nat)

theorem entries_settle (l : Ledger κ) :
    (settle ending count l).map Receipt.entry = l.map Receipt.entry := by
  induction l generalizing count with
  | nil => cases count <;> rfl
  | cons r l ih =>
    cases count with
    | zero => rfl
    | succ count =>
      unfold settle
      split
      · exact congrArg (r.entry :: ·) (ih count)
      · exact congrArg (r.entry :: ·) (ih (count + 1))

theorem waiting_settle (h : ending ≠ .waiting) (l : Ledger κ) :
    of .waiting (settle ending count l) = (of .waiting l).drop count := by
  induction l generalizing count with
  | nil => cases count <;> rfl
  | cons r l ih =>
    cases count with
    | zero => rfl
    | succ count =>
      unfold settle
      split
      · rename_i hwaits
        rw [of_cons_of_ne h, of_cons_self hwaits, ih]
        rfl
      · rename_i hsettled
        rw [of_cons_of_ne hsettled, of_cons_of_ne hsettled, ih]

theorem of_settle_of_ne (hother : other ≠ ending) (hsettled : other ≠ .waiting) (l : Ledger κ) :
    of other (settle ending count l) = of other l := by
  induction l generalizing count with
  | nil => cases count <;> rfl
  | cons r l ih =>
    cases count with
    | zero => rfl
    | succ count =>
      unfold settle
      split
      · rename_i hwaits
        rw [of_cons_of_ne hother.symm, of_cons_of_ne (hwaits ▸ hsettled.symm), ih]
      · by_cases hr : r.ending = other
        · rw [of_cons_self hr, of_cons_self hr, ih]
        · rw [of_cons_of_ne hr, of_cons_of_ne hr, ih]

/-- What gets its ending now is newer than what had it before, if no older match waited then. -/
theorem of_settle (hending : ending = .answered ∨ ending = .dropped) (h : InOrder l) :
    of ending (settle ending count l) = of ending l ++ (of .waiting l).take count := by
  induction l generalizing count with
  | nil => cases count <;> rfl
  | cons r l ih =>
    obtain ⟨hfirst, hrest⟩ := List.pairwise_cons.mp h
    cases count with
    | zero => exact (List.append_nil _).symm
    | succ count =>
      unfold settle
      split
      · rename_i hwaits
        have hnone : of ending l = [] := by
          refine of_eq_nil fun b hb => ?_
          obtain ⟨hanswered, hdropped⟩ := hfirst b hb hwaits
          rcases hending with rfl | rfl
          · exact hanswered
          · exact hdropped
        have hne : r.ending ≠ ending := by
          rw [hwaits]
          rcases hending with rfl | rfl <;> exact nofun
        have hthis : of ending (⟨r.entry, ending⟩ :: settle ending count l) =
            r.entry :: of ending (settle ending count l) := of_cons_self rfl
        rw [hthis, of_cons_of_ne hne, of_cons_self hwaits, ih count hrest, hnone]
        rfl
      · rename_i hsettled
        rw [of_cons_of_ne hsettled]
        by_cases hr : r.ending = ending
        · rw [of_cons_self hr, of_cons_self hr, ih (count + 1) hrest]
          rfl
        · rw [of_cons_of_ne hr, of_cons_of_ne hr, ih (count + 1) hrest]

variable {ending}

/-- What is behind the settled matches has changed in nothing but its ending. -/
theorem forall₂_settle {R : Receipt κ → Receipt κ → Prop} (hsame : ∀ r, R r r)
    (hturn : 0 < count → ∀ entry, R ⟨entry, .waiting⟩ ⟨entry, ending⟩) (l : Ledger κ) :
    List.Forall₂ R l (settle ending count l) := by
  induction l generalizing count with
  | nil => cases count <;> exact .nil
  | cons r l ih =>
    cases count with
    | zero => exact List.forall₂_same.mpr fun r _ => hsame r
    | succ count =>
      unfold settle
      split
      · rename_i hwaits
        obtain ⟨entry, _⟩ := r
        obtain rfl := hwaits
        exact .cons (hturn (Nat.succ_pos _) entry) (ih count fun _ => hturn (Nat.succ_pos _))
      · exact .cons (hsame r) (ih (count + 1) hturn)

theorem InOrder.settle (hending : ending ≠ .waiting) (h : InOrder l) :
    InOrder (settle ending count l) := by
  induction l generalizing count with
  | nil => cases count <;> exact .nil
  | cons r l ih =>
    obtain ⟨hfirst, hrest⟩ := List.pairwise_cons.mp h
    cases count with
    | zero => exact h
    | succ count =>
      unfold Ledger.settle
      split
      · exact List.pairwise_cons.mpr ⟨fun _ _ hwaits => absurd hwaits hending, ih count hrest⟩
      · rename_i hsettled
        exact List.pairwise_cons.mpr ⟨fun _ _ hwaits => absurd hwaits hsettled,
          ih (count + 1) hrest⟩

end Settle

/-! ### The matches of a name -/

section Discard

variable (name : String)

theorem entries_discard (l : Ledger κ) :
    (discard name l).map Receipt.entry = l.map Receipt.entry := by
  unfold discard
  rw [List.map_map]
  refine List.map_congr_left fun r _ => ?_
  show (if _ then _ else r : Receipt κ).entry = r.entry
  split <;> rfl

theorem waiting_discard (l : Ledger κ) :
    of .waiting (discard name l) = (of .waiting l).filter (·.name != name) := by
  have hgone : Ending.discarded ≠ .waiting := nofun
  induction l with
  | nil => rfl
  | cons r l ih =>
    show of .waiting ((if _ then _ else r) :: discard name l) = _
    by_cases hwaits : r.ending = .waiting
    · rw [of_cons_self hwaits]
      by_cases hname : r.entry.name = name
      · rw [if_pos ⟨hwaits, hname⟩, of_cons_of_ne hgone, ih,
          List.filter_cons_of_neg (by simpa using hname)]
      · rw [if_neg fun h => hname h.2, of_cons_self hwaits, ih,
          List.filter_cons_of_pos (by simpa using hname)]
    · rw [if_neg fun h => hwaits h.1, of_cons_of_ne hwaits, of_cons_of_ne hwaits, ih]

theorem of_discard (hother : other ≠ .discarded) (hsettled : other ≠ .waiting) (l : Ledger κ) :
    of other (discard name l) = of other l := by
  induction l with
  | nil => rfl
  | cons r l ih =>
    show of other ((if _ then _ else r) :: discard name l) = _
    split
    · rename_i hwaits
      rw [of_cons_of_ne hother.symm, of_cons_of_ne (hwaits.1 ▸ hsettled.symm), ih]
    · by_cases hr : r.ending = other
      · rw [of_cons_self hr, of_cons_self hr, ih]
      · rw [of_cons_of_ne hr, of_cons_of_ne hr, ih]

theorem forall₂_discard {R : Receipt κ → Receipt κ → Prop} (hsame : ∀ r, R r r)
    (hturn : ∀ entry : PendingEvent κ, entry.name = name →
      R ⟨entry, .waiting⟩ ⟨entry, .discarded⟩) (l : Ledger κ) :
    List.Forall₂ R l (discard name l) := by
  refine List.forall₂_map_right_iff.mpr (List.forall₂_same.mpr fun r _ => ?_)
  split
  · rename_i hr
    obtain ⟨entry, _⟩ := r
    obtain ⟨rfl, hname⟩ := hr
    exact hturn entry hname
  · exact hsame r

theorem InOrder.discard (h : InOrder l) : InOrder (discard name l) := by
  unfold Ledger.discard
  refine List.pairwise_map.mpr (h.imp fun {a b} hab hwaits => ?_)
  have ha : a.ending = .waiting := by
    split at hwaits
    · exact absurd hwaits nofun
    · exact hwaits
  split
  · exact ⟨nofun, nofun⟩
  · exact hab ha

end Discard

/-- In order, and with nothing lost, the answered matches stand before the waiting ones. -/
theorem entries_eq_append (h : InOrder l)
    (hkept : ∀ r ∈ l, r.ending = .answered ∨ r.ending = .waiting) :
    l.map Receipt.entry = of .answered l ++ of .waiting l := by
  induction l with
  | nil => rfl
  | cons r l ih =>
    obtain ⟨hfirst, hrest⟩ := List.pairwise_cons.mp h
    obtain ⟨hr, hl⟩ := List.forall_mem_cons.mp hkept
    rw [List.map_cons, ih hrest hl]
    rcases hr with hr | hr
    · rw [of_cons_self hr, of_cons_of_ne (by rw [hr]; exact nofun)]
      rfl
    · have hnone : of .answered l = [] := of_eq_nil fun b hb => (hfirst b hb hr).1
      rw [of_cons_self hr, of_cons_of_ne (by rw [hr]; exact nofun), hnone]
      rfl

end Ledger

/-! ## The ledger of a processor -/

namespace EventProcessor

variable {κ : Type} (engine : PatternEngine) {p : EventProcessor κ}

/-- The matches that a call queues. -/
def madeBy (p : EventProcessor κ) : EventCall κ → List (PendingEvent κ)
  | .feed line => p.found line
  | _ => []

/-- The match that a call takes. -/
def takenBy (p : EventProcessor κ) : EventCall κ → List (PendingEvent κ)
  | .pop => p.queue.entries.take 1
  | _ => []

/-- What calls give in a row, each in the processor that it is made to. -/
def along {α : Type} (give : EventProcessor κ → EventCall κ → List α) :
    EventProcessor κ → List (EventCall κ) → List α
  | _, [] => []
  | p, call :: calls => give p call ++ along give (p.perform engine call) calls

/-- **The matches that calls queue**: for each line that is fed, the matches of the events that are
registered then, in their order. -/
def made (p : EventProcessor κ) (calls : List (EventCall κ)) : List (PendingEvent κ) :=
  along engine madeBy p calls

/-- **The matches that calls take**, in order. -/
def taken (p : EventProcessor κ) (calls : List (EventCall κ)) : List (PendingEvent κ) :=
  along engine takenBy p calls

/-- Notes in the ledger what a call means for the matches. -/
def note (p : EventProcessor κ) (l : Ledger κ) : EventCall κ → Ledger κ
  | .register name pattern callback =>
    match (EventCall.register name pattern callback).defined? engine with
    | some d => l.discard d.name
    | none => l
  | .unregister name => l.discard name
  | .feed line =>
    let l := l ++ Ledger.queued (p.found line)
    l.settle .dropped (p.queue.overflow (l.of .waiting).length)
  | .pop => l.settle .answered 1

/-- The ledger behind calls, which are noted one after another. -/
def noteAll : EventProcessor κ → Ledger κ → List (EventCall κ) → Ledger κ
  | _, l, [] => l
  | p, l, call :: calls => noteAll (p.perform engine call) (p.note engine l call) calls

/-- **The ledger of a row of calls.** -/
def ledger (limit? : Option Nat) (calls : List (EventCall κ)) : Ledger κ :=
  noteAll engine (empty limit?) [] calls

variable {engine}

theorem along_append {α : Type} (give : EventProcessor κ → EventCall κ → List α)
    (p : EventProcessor κ) (calls calls' : List (EventCall κ)) :
    along engine give p (calls ++ calls') =
      along engine give p calls ++ along engine give (p.after engine calls) calls' := by
  induction calls generalizing p with
  | nil => rfl
  | cons call calls ih =>
    rw [List.cons_append, along, ih, along, List.append_assoc]
    rfl

theorem along_concat {α : Type} (give : EventProcessor κ → EventCall κ → List α)
    (p : EventProcessor κ) (calls : List (EventCall κ)) (call : EventCall κ) :
    along engine give p (calls ++ [call]) =
      along engine give p calls ++ give (p.after engine calls) call := by
  rw [along_append]
  exact congrArg _ (List.append_nil _)

theorem noteAll_append (p : EventProcessor κ) (l : Ledger κ) (calls calls' : List (EventCall κ)) :
    noteAll engine p l (calls ++ calls') =
      noteAll engine (p.after engine calls) (noteAll engine p l calls) calls' := by
  induction calls generalizing p l with
  | nil => rfl
  | cons call calls ih => exact ih _ _

theorem ledger_concat (limit? : Option Nat) (calls : List (EventCall κ)) (call : EventCall κ) :
    ledger engine limit? (calls ++ [call]) =
      ((empty limit?).after engine calls).note engine (ledger engine limit? calls) call :=
  noteAll_append _ _ _ _

/-! ### The limit of the queue -/

/-- The limit stays, and what waits fits it behind every call. -/
theorem fits_perform (hs : p.Sound) (h : p.queue.Fits) (call : EventCall κ) :
    (p.perform engine call).queue.limit? = p.queue.limit? ∧ (p.perform engine call).queue.Fits := by
  have hdiscard : ∀ name, (p.discard name).limit? = p.queue.limit? ∧ (p.discard name).Fits :=
    fun name => ⟨rfl, h.of_length_le rfl (List.length_filter_le _ _)⟩
  cases call with
  | register name pattern callback =>
    rw [perform_register]
    cases (EventCall.register name pattern callback).defined? engine with
    | some d =>
      simp only
      rw [queue_define d hs]
      exact hdiscard d.name
    | none => exact ⟨rfl, h⟩
  | unregister name =>
    show (p.unregister name).2.queue.limit? = _ ∧ (p.unregister name).2.queue.Fits
    rw [queue_unregister name hs]
    exact hdiscard name
  | feed line =>
    show (p.feed engine line).2.queue.limit? = _ ∧ (p.feed engine line).2.queue.Fits
    rw [feed_eq line engine hs]
    exact ⟨EventQueue.limit_pushAll _ _, EventQueue.fits_pushAll h _⟩
  | pop =>
    rw [perform_pop]
    exact ⟨rfl, h.of_length_le rfl (by simp)⟩

/-! ### The ledger agrees with the processor -/

/-- **The processor and the ledger agree**, where some matches were made and some taken. -/
structure Balanced (p : EventProcessor κ) (l : Ledger κ) (made taken : List (PendingEvent κ)) :
    Prop where
  made : l.map Receipt.entry = made
  answered : l.of .answered = taken
  waiting : l.of .waiting = p.queue.entries
  dropped : (l.of .dropped).length = p.queue.dropped
  inOrder : l.InOrder

theorem balanced_empty (limit? : Option Nat) : Balanced (empty (κ := κ) limit?) [] [] [] :=
  ⟨rfl, rfl, rfl, rfl, .nil⟩

namespace Balanced

variable {l : Ledger κ} {made taken : List (PendingEvent κ)}

theorem discard (h : Balanced p l made taken) (name : String) {p' : EventProcessor κ}
    (hqueue : p'.queue = p.discard name) : Balanced p' (l.discard name) made taken where
  made := (Ledger.entries_discard name l).trans h.made
  answered := by
    have hsame : Ledger.of .answered (l.discard name) = Ledger.of .answered l :=
      Ledger.of_discard name (by decide) (by decide) l
    exact hsame.trans h.answered
  waiting := by
    rw [Ledger.waiting_discard, h.waiting, hqueue]
    rfl
  dropped := by
    have hsame : Ledger.of .dropped (l.discard name) = Ledger.of .dropped l :=
      Ledger.of_discard name (by decide) (by decide) l
    rw [hsame, h.dropped, hqueue]
    rfl
  inOrder := h.inOrder.discard name

theorem feed (h : Balanced p l made taken) (hs : p.Sound) (hfits : p.queue.Fits) (line : String) :
    Balanced (p.perform engine (.feed line)) (p.note engine l (.feed line))
      (made ++ p.found line) taken := by
  obtain ⟨hentries, hdropped⟩ := EventQueue.pushAll_of_fits hfits (p.found line)
  have hqueue : (p.perform engine (.feed line)).queue = p.queue.pushAll (p.found line) := by
    show (p.feed engine line).2.queue = _
    rw [feed_eq line engine hs]
  have hwaiting : Ledger.of .waiting (l ++ Ledger.queued (p.found line)) =
      p.queue.entries ++ p.found line := by
    rw [Ledger.of_append, h.waiting, Ledger.waiting_queued]
  have hinOrder := h.inOrder.append_queued (p.found line)
  have hold : ∀ ending : Ending, ending ≠ .waiting →
      Ledger.of ending (l ++ Ledger.queued (p.found line)) = Ledger.of ending l := by
    intro ending hne
    rw [Ledger.of_append, Ledger.of_queued _ hne, List.append_nil]
  have hle : p.queue.overflow (p.queue.entries ++ p.found line).length ≤
      (p.queue.entries ++ p.found line).length := by
    unfold EventQueue.overflow
    split
    · exact Nat.sub_le _ _
    · exact Nat.zero_le _
  unfold note
  simp only [hwaiting]
  generalize p.queue.overflow (p.queue.entries ++ p.found line).length = count at *
  have hanswered : Ledger.of .answered (Ledger.settle .dropped count
      (l ++ Ledger.queued (p.found line))) = _ :=
    Ledger.of_settle_of_ne _ _ (by decide) (by decide) _
  have hdrops : Ledger.of .dropped (Ledger.settle .dropped count
      (l ++ Ledger.queued (p.found line))) = _ := Ledger.of_settle _ _ (.inr rfl) hinOrder
  have hleft : Ledger.of .waiting (Ledger.settle .dropped count
      (l ++ Ledger.queued (p.found line))) = _ := Ledger.waiting_settle _ _ (by decide) _
  refine ⟨?_, ?_, ?_, ?_, hinOrder.settle _ nofun⟩
  · rw [Ledger.entries_settle, List.map_append, h.made, Ledger.entries_queued]
  · rw [hanswered, hold .answered nofun, h.answered]
  · rw [hleft, hwaiting, hqueue, hentries]
  · rw [hdrops, hold .dropped nofun, hwaiting, List.length_append, h.dropped,
      List.length_take_of_le hle, hqueue, hdropped]

theorem pop (h : Balanced p l made taken) :
    Balanced (p.perform engine .pop) (p.note engine l .pop) made (taken ++ p.takenBy .pop) := by
  have hdrops : Ledger.of .dropped (l.settle .answered 1) = _ :=
    Ledger.of_settle_of_ne _ _ (by decide) (by decide) l
  have hanswers : Ledger.of .answered (l.settle .answered 1) = _ :=
    Ledger.of_settle _ _ (.inl rfl) h.inOrder
  have hleft : Ledger.of .waiting (l.settle .answered 1) = _ :=
    Ledger.waiting_settle _ _ (by decide) l
  rw [h.answered, h.waiting] at hanswers
  rw [h.waiting, List.drop_one] at hleft
  rw [perform_pop]
  exact ⟨(Ledger.entries_settle _ _ l).trans h.made, hanswers, hleft,
    (congrArg List.length hdrops).trans h.dropped, h.inOrder.settle _ nofun⟩

/-- **The processor and the ledger agree behind every call.** -/
theorem perform (engine : PatternEngine) (h : Balanced p l made taken) (hs : p.Sound)
    (hfits : p.queue.Fits) (call : EventCall κ) :
    Balanced (p.perform engine call) (p.note engine l call) (made ++ p.madeBy call)
      (taken ++ p.takenBy call) := by
  cases call with
  | register name pattern callback =>
    rw [perform_register]
    unfold note
    simp only [madeBy, takenBy, List.append_nil]
    cases (EventCall.register name pattern callback).defined? engine with
    | some d => exact h.discard d.name (queue_define d hs)
    | none => exact h
  | unregister name =>
    simp only [madeBy, takenBy, List.append_nil]
    exact h.discard name (queue_unregister name hs)
  | feed line =>
    simp only [takenBy, List.append_nil]
    exact h.feed hs hfits line
  | pop =>
    simp only [madeBy, List.append_nil]
    exact h.pop

end Balanced

/-! ### What one call changes -/

/-- **What a call can make of a match**: one that waits is taken by a `pop`, dropped for a line that
is fed if the queue has a limit, and discarded if its name is unregistered or registered again. An
ending is for good. -/
inductive Turn (engine : PatternEngine) (limit? : Option Nat) (call : EventCall κ) :
    Receipt κ → Receipt κ → Prop
  | same (r : Receipt κ) : Turn engine limit? call r r
  | answered (entry : PendingEvent κ) (hcall : call = .pop) :
      Turn engine limit? call ⟨entry, .waiting⟩ ⟨entry, .answered⟩
  | dropped (entry : PendingEvent κ) (line : String) (hcall : call = .feed line)
      (hlimit : limit?.isSome = true) : Turn engine limit? call ⟨entry, .waiting⟩ ⟨entry, .dropped⟩
  | discarded (entry : PendingEvent κ)
      (hcall : call.removes entry.name = true ∨ call.defines engine entry.name = true) :
      Turn engine limit? call ⟨entry, .waiting⟩ ⟨entry, .discarded⟩

/-- The ledger behind a call is the one before it and what the call queues, each with its turn. -/
theorem turn_note {limit? : Option Nat} (hlimit : p.queue.limit? = limit?.map (max 1))
    (l : Ledger κ) (call : EventCall κ) :
    List.Forall₂ (Turn engine limit? call) (l ++ Ledger.queued (p.madeBy call))
      (p.note engine l call) := by
  have hnothing : l ++ Ledger.queued [] = l := List.append_nil l
  have hdiscard : ∀ name : String, (call.removes name = true ∨ call.defines engine name = true) →
      List.Forall₂ (Turn engine limit? call) l (l.discard name) := fun name hcall =>
    Ledger.forall₂_discard name .same (fun entry hname => .discarded entry (hname ▸ hcall)) l
  cases call with
  | register name pattern callback =>
    simp only [note, madeBy]
    rw [hnothing]
    cases hdef : (EventCall.register name pattern callback).defined? engine with
    | some d =>
      refine hdiscard d.name (.inr ?_)
      unfold EventCall.defines
      rw [hdef, Option.any_some]
      exact beq_self_eq_true d.name
    | none => exact List.forall₂_same.mpr fun r _ => .same r
  | unregister name =>
    unfold note madeBy
    rw [hnothing]
    exact hdiscard name (.inl (beq_self_eq_true name))
  | feed line =>
    refine Ledger.forall₂_settle _ .same (fun hpos entry => .dropped entry line rfl ?_) _
    -- without a limit nothing is too much
    by_contra hnone
    rw [Bool.not_eq_true, Option.isSome_eq_false_iff, Option.isNone_iff_eq_none] at hnone
    unfold EventQueue.overflow at hpos
    rw [hlimit, hnone] at hpos
    exact absurd hpos (Nat.lt_irrefl 0)
  | pop =>
    unfold note madeBy
    rw [hnothing]
    exact Ledger.forall₂_settle _ .same (fun _ entry => .answered entry rfl) l

theorem exists_before_turn {R : Receipt κ → Receipt κ → Prop} {l l' : Ledger κ}
    (h : List.Forall₂ R l l') {r' : Receipt κ} (hr' : r' ∈ l') : ∃ r ∈ l, R r r' := by
  induction h with
  | nil => exact absurd hr' List.not_mem_nil
  | @cons a b l l' hab _ ih =>
    rcases List.mem_cons.mp hr' with rfl | hmem
    · exact ⟨a, List.mem_cons_self, hab⟩
    · obtain ⟨r, hr, hturn⟩ := ih hmem
      exact ⟨r, List.mem_cons_of_mem a hr, hturn⟩

/-! ### Behind a row of calls -/

section Rows

variable (limit? : Option Nat) (calls : List (EventCall κ))

theorem fits_after (engine : PatternEngine) :
    ((empty (κ := κ) limit?).after engine calls).queue.limit? = limit?.map (max 1) ∧
      ((empty (κ := κ) limit?).after engine calls).queue.Fits := by
  induction calls using List.reverseRecOn with
  | nil => exact ⟨rfl, EventQueue.fits_empty limit?⟩
  | append_singleton calls call ih =>
    rw [after_append]
    obtain ⟨hlimit, hfits⟩ :=
      fits_perform (sound_after engine (sound_empty limit?) calls) ih.2 call
    exact ⟨hlimit.trans ih.1, hfits⟩

theorem balanced_ledger (engine : PatternEngine) :
    Balanced ((empty limit?).after engine calls) (ledger engine limit? calls)
      (made engine (empty limit?) calls) (taken engine (empty limit?) calls) := by
  induction calls using List.reverseRecOn with
  | nil => exact balanced_empty limit?
  | append_singleton calls call ih =>
    have hs := sound_after engine (sound_empty limit?) calls
    have hstep := ih.perform engine hs (fits_after limit? calls engine).2 call
    rw [after_append, ledger_concat]
    unfold made taken
    rw [along_concat, along_concat]
    exact hstep

/-- No event is unregistered or replaced. -/
def Undisturbed (engine : PatternEngine) (limit? : Option Nat) (calls : List (EventCall κ)) :
    Prop :=
  ∀ before call after, calls = before ++ call :: after →
    ∀ name ∈ ((empty (κ := κ) limit?).after engine before).names,
      call.removes name = false ∧ call.defines engine name = false

variable {limit? calls}

theorem Undisturbed.init {call : EventCall κ} (h : Undisturbed engine limit? (calls ++ [call])) :
    Undisturbed engine limit? calls := by
  intro before call' after hcalls
  refine h before call' (after ++ [call]) ?_
  rw [hcalls, List.append_assoc]
  rfl

/-- Without a limit, and with no event unregistered or replaced, no match is lost. -/
theorem kept_of_undisturbed (hlimit : limit? = none) (h : Undisturbed engine limit? calls) :
    ∀ r ∈ ledger engine limit? calls, r.ending = .answered ∨ r.ending = .waiting := by
  induction calls using List.reverseRecOn with
  | nil => exact fun r hr => absurd hr List.not_mem_nil
  | append_singleton calls call ih =>
    intro r' hr'
    have hbalanced := balanced_ledger limit? calls engine
    have hs := sound_after engine (sound_empty limit?) calls
    rw [ledger_concat] at hr'
    obtain ⟨r, hr, hturn⟩ :=
      exists_before_turn (turn_note (fits_after limit? calls engine).1 _ call) hr'
    cases hturn with
    | same =>
      rcases List.mem_append.mp hr with hold | hnew
      · exact ih h.init _ hold
      · exact .inr (Ledger.ending_of_mem_queued _ hnew)
    | answered => exact .inl rfl
    | dropped entry line hcall hsome =>
      rw [hlimit] at hsome
      exact absurd hsome nofun
    | discarded entry hcall =>
      rcases List.mem_append.mp hr with hold | hnew
      · -- a match that waits belongs to an event that is registered
        have hmem : entry ∈ Ledger.of .waiting (ledger engine limit? calls) :=
          List.mem_map.mpr ⟨⟨entry, .waiting⟩, List.mem_filter.mpr ⟨hold, rfl⟩, rfl⟩
        rw [hbalanced.waiting] at hmem
        have hname : entry.name ∈ ((empty limit?).after engine calls).names :=
          List.mem_map_of_mem (hs.current entry hmem)
        obtain ⟨hremoves, hdefines⟩ := h calls call [] rfl _ hname
        rw [hremoves, hdefines] at hcall
        rcases hcall with hcall | hcall <;> exact absurd hcall nofun
      · cases call with
        | feed line => rcases hcall with hcall | hcall <;> exact absurd hcall nofun
        | _ => exact absurd hnew List.not_mem_nil

end Rows

/-- **What becomes of the matches** of a processor behind a row of calls. -/
structure Delivered (engine : PatternEngine) (limit? : Option Nat) (calls : List (EventCall κ)) :
    Prop where
  /-- The ledger has the matches that were queued, each once, in order. -/
  queued : (ledger engine limit? calls).map Receipt.entry = made engine (empty limit?) calls
  /-- Those that were taken are those that are answered, in the order in which they were queued. -/
  answered : (ledger engine limit? calls).of .answered = taken engine (empty limit?) calls
  /-- Those that wait are in the queue. -/
  waiting : (ledger engine limit? calls).of .waiting =
    ((empty limit?).after engine calls).queue.entries
  /-- Each that was dropped was counted. -/
  dropped : ((ledger engine limit? calls).of .dropped).length =
    ((empty limit?).after engine calls).dropped
  /-- None is answered or dropped while an older one waits. -/
  inOrder : (ledger engine limit? calls).InOrder
  /-- One more call gives endings to matches that wait, each for its reason, and keeps the endings
  of all others. -/
  turns : ∀ call, List.Forall₂ (Turn engine limit? call)
    (ledger engine limit? calls ++ Ledger.queued (((empty limit?).after engine calls).madeBy call))
    (ledger engine limit? (calls ++ [call]))
  /-- Without a limit, and with no event unregistered or replaced, none is lost. -/
  whole : limit? = none → Undisturbed engine limit? calls →
    taken engine (empty limit?) calls ++ ((empty limit?).after engine calls).queue.entries =
      made engine (empty limit?) calls

/-- **Every match is delivered exactly once, or dropped, or discarded, or waits**, and in order. -/
theorem delivered (engine : PatternEngine) (limit? : Option Nat) (calls : List (EventCall κ)) :
    Delivered engine limit? calls := by
  have h := balanced_ledger limit? calls engine
  refine ⟨h.made, h.answered, h.waiting, h.dropped, h.inOrder, fun call => ?_,
    fun hlimit hundisturbed => ?_⟩
  · rw [ledger_concat]
    exact turn_note (fits_after limit? calls engine).1 _ call
  · rw [← h.answered, ← h.waiting, ← h.made]
    exact (Ledger.entries_eq_append h.inOrder (kept_of_undisturbed hlimit hundisturbed)).symm

end EventProcessor

end Heartbeat
