import Mathlib.Data.List.Induction
import Mathlib.Data.List.Infix
import Mathlib.Data.List.Nodup
import Matchmaking.Proofs.Engine.Intake

/-!
# Which full batch is served first

Batches get full one after the other (`filled`). While no session waits they pile up, and the
session that comes next gets the last of them (`Feed.serve`). So an earlier batch is
overtaken, and waits until a session comes when it is the last one.

What one arrival can do is said once (`Feed.Moves`, `Feed.moves_take_serve`): it leaves those
that were served and those that wait in line (`Feed.line`), it puts a batch that gets full
behind them, or it takes the last one of a pile before the others of it. In the last case
nothing is overtaken if the pile has that one batch only. So batches are served in turn as
long as a session comes whenever a batch is full (`Feed.Heard.line_eq`), and only then, if no
ticket comes twice (`Feed.Heard.isPrompt`).
-/

namespace Matchmaking

variable {σ τ : Type}

/-! ## Batches that get full -/

/-- The full ones of the batches that tickets are cut into. -/
def filled (size : Nat) (ts : List τ) : List (List τ) :=
  (batches size ts).filter fun b => b.length = max size 1

theorem length_of_mem_filled {size : Nat} {ts b : List τ} (h : b ∈ filled size ts) :
    b.length = max size 1 := by
  simpa using (List.mem_filter.1 h).2

/-- Full batches are the full ones of what they and a short one make up. -/
theorem filled_flatten_append {size : Nat} {bs : List (List τ)} {rest : List τ}
    (hbs : ∀ b ∈ bs, b.length = max size 1) (hrest : rest.length < max size 1) :
    filled size (bs.flatten ++ rest) = bs := by
  induction bs with
  | nil =>
    rw [List.flatten_nil, List.nil_append, filled]
    by_cases hne : rest = []
    · rw [hne, batches]
      rfl
    · have hpos := List.length_pos_iff.2 hne
      rw [batches_of_length_le hne (by omega), List.filter_cons_of_neg (by simp; omega),
        List.filter_nil]
  | cons b bs ih =>
    obtain ⟨hb, hbs⟩ := List.forall_mem_cons.1 hbs
    have hcut := ih hbs
    rw [filled] at hcut ⊢
    rw [List.flatten_cons, List.append_assoc, batches_append_of_length hb,
      List.filter_cons_of_pos (by simpa using hb), hcut]

/-- Of tickets that are different no two batches are the same. -/
theorem nodup_filled {size : Nat} {ts : List τ} (h : ts.Nodup) : (filled size ts).Nodup := by
  refine List.Nodup.filter _ ?_
  have hflatten : (batches size ts).flatten.Nodup := by rwa [flatten_batches]
  refine (List.nodup_flatten.1 hflatten).2.imp_of_mem fun {b c} hb _ hdisjoint heq => ?_
  obtain ⟨x, hx⟩ := List.exists_mem_of_ne_nil b (length_of_mem_batches hb).1
  exact hdisjoint hx (heq ▸ hx)

namespace Feed

variable {f : Feed σ τ} {size : Nat} {a : Arrival σ τ} {as as' : List (Arrival σ τ)}

/-! ## One arrival -/

/-- No session waits while a batch is full. -/
def IsIdle (f : Feed σ τ) : Prop := f.waiting = [] ∨ f.full = []

theorem isIdle_serve (f : Feed σ τ) : f.serve.2.IsIdle := by
  rw [serve]
  split
  · exact .inr ‹_›
  · split_ifs with hwaiting
    · exact .inl (List.isEmpty_iff.1 hwaiting)
    · exact .inl rfl

theorem serve_of_isIdle (h : f.IsIdle) : f.serve = ([], f) := by
  rcases f.serve_cases with hserve | ⟨b, bs, hfull, hwaiting, _⟩
  · exact hserve
  · rcases h with h | h
    · exact absurd h hwaiting
    · rw [h] at hfull
      cases hfull

/-- A session that comes while batches are full gets the last one of them. -/
theorem take_session_serve {s : σ} {b : List τ} {bs : List (List τ)} (hidle : f.IsIdle)
    (hears : f.Hears (.session s)) (hfull : f.full = b :: bs) :
    (f.take size (.session s)).serve = ([⟨[s], b⟩], { f with full := bs, waiting := [] }) := by
  have hwaiting : f.waiting = [] := hidle.resolve_right (hfull ▸ List.cons_ne_nil b bs)
  rw [take, if_pos (show f.sessionsOpen = true from hears)]
  simp only [serve, hfull, hwaiting]
  rfl

/-- What becomes of full batches when something comes. -/
inductive Moves (size : Nat) (f : Feed σ τ) (a : Arrival σ τ) (served : List (Batch σ τ))
    (g : Feed σ τ) : Prop
  /-- None gets full, and none is served. -/
  | keeps (hserved : served = []) (hfull : g.full = f.full)
    (hbatch : g.batch = f.batch ++ a.ticket?.toList)
  /-- One gets full, and is served at once or waits behind the others. -/
  | fills {b : List τ} (hb : b = f.batch ++ a.ticket?.toList) (hlength : b.length = max size 1)
    (hbatch : g.batch = [])
    (hline : served.map (·.tickets) ++ g.full.reverse = f.full.reverse ++ [b])
  /-- A session comes while some wait, and gets the last of them. -/
  | serves {s : σ} {b : List τ} (ha : a = .session s) (hfull : f.full = b :: g.full)
    (hserved : served = [⟨[s], b⟩]) (hbatch : g.batch = f.batch)

theorem moves_take_serve (hcut : f.Cut size) (hidle : f.IsIdle) (hears : f.Hears a) :
    f.Moves size a (f.take size a).serve.1 (f.take size a).serve.2 := by
  have hbatch := hcut.batch
  cases a with
  | ticket t =>
    rw [take, if_pos (show f.ticketsOpen = true from hears), addTicket]
    split_ifs with hlast
    · refine .fills (b := f.batch ++ [t]) rfl ?_ ?_ ?_
      · rw [List.length_append, List.length_singleton]
        omega
      · rw [serve]
        split_ifs <;> rfl
      · -- If it is served at once, no other one waits.
        rw [serve]
        dsimp only
        split_ifs with hwaiting
        · rw [List.reverse_cons]
          rfl
        · have hfull : f.full = [] := hidle.resolve_left (mt List.isEmpty_iff.2 hwaiting)
          rw [hfull]
          rfl
    · have hidle' : IsIdle { f with batch := f.batch ++ [t] } := hidle
      rw [serve_of_isIdle hidle']
      exact .keeps rfl rfl rfl
  | session s =>
    by_cases hnone : f.full = []
    · have hidle' : IsIdle { f with waiting := f.waiting ++ [s] } := .inr hnone
      rw [take, if_pos (show f.sessionsOpen = true from hears), serve_of_isIdle hidle']
      exact .keeps rfl rfl (List.append_nil _).symm
    · obtain ⟨b, bs, hfull⟩ := List.exists_cons_of_ne_nil hnone
      rw [take_session_serve hidle hears hfull]
      exact .serves rfl hfull rfl rfl
  | ticketsClosed =>
    have hidle' : IsIdle { f with ticketsOpen := false } := hidle
    rw [take, serve_of_isIdle hidle']
    exact .keeps rfl rfl (List.append_nil _).symm
  | sessionsClosed =>
    have hidle' : IsIdle { f with sessionsOpen := false } := hidle
    rw [take, serve_of_isIdle hidle']
    exact .keeps rfl rfl (List.append_nil _).symm

/-! ## All that came -/

/-- What was served as things came, and the feed after them. -/
def history (size : Nat) (as : List (Arrival σ τ)) : List (Batch σ τ) × Feed σ τ :=
  as.foldl (fun h a => (h.1 ++ (h.2.take size a).serve.1, (h.2.take size a).serve.2)) ([], .start)

theorem history_concat (size : Nat) (as : List (Arrival σ τ)) (a : Arrival σ τ) :
    history size (as ++ [a]) =
      ((history size as).1 ++ ((history size as).2.take size a).serve.1,
        ((history size as).2.take size a).serve.2) := by
  rw [history, List.foldl_concat]
  rfl

/-- Things come from streams that are open at the time. -/
inductive Heard (size : Nat) : List (Arrival σ τ) → Prop
  | nil : Heard size []
  | concat {as : List (Arrival σ τ)} {a : Arrival σ τ} (h : Heard size as)
    (hears : (history size as).2.Hears a) : Heard size (as ++ [a])

theorem Heard.of_concat (h : Heard size (as ++ [a])) :
    Heard size as ∧ (history size as).2.Hears a := by
  generalize hall : as ++ [a] = all at h
  cases h with
  | nil => exact absurd hall (List.append_ne_nil_of_right_ne_nil as (List.cons_ne_nil a []))
  | concat h hears =>
    obtain ⟨rfl, hlast⟩ := List.append_inj' hall rfl
    obtain rfl := (List.cons.inj hlast).1
    exact ⟨h, hears⟩

theorem Heard.of_isPrefix (h : Heard size as) (hinitial : as' <+: as) : Heard size as' := by
  induction h with
  | nil => exact List.prefix_nil.1 hinitial ▸ .nil
  | concat h hears ih =>
    rcases List.prefix_concat_iff.1 hinitial with rfl | hinitial
    · exact .concat h hears
    · exact ih hinitial

/-- The batches that got full, in the order in which they did. -/
def gotFull (size : Nat) (as : List (Arrival σ τ)) : List (List τ) :=
  filled size (as.filterMap Arrival.ticket?)

/-- Full batches in line: those that were served, in the order in which they were, and then
    those that wait, in the order in which they got full. -/
def line (size : Nat) (as : List (Arrival σ τ)) : List (List τ) :=
  (history size as).1.map (·.tickets) ++ (history size as).2.full.reverse

/-- What is known of a feed: it is cut to the size, no session waits while a batch is full,
    and the tickets that came are those of the batches that got full and of the one that is
    not full yet. -/
structure Keeps (size : Nat) (as : List (Arrival σ τ)) : Prop where
  cut : (history size as).2.Cut size
  idle : (history size as).2.IsIdle
  tickets : as.filterMap Arrival.ticket? =
    (gotFull size as).flatten ++ (history size as).2.batch

theorem keeps_nil (size : Nat) : Keeps size ([] : List (Arrival σ τ)) where
  cut := cut_start size
  idle := .inl rfl
  tickets := by
    rw [gotFull, List.filterMap_nil, filled, batches]
    rfl

/-- The tickets that came make up the batches that got full, and one that is not. -/
theorem gotFull_eq {bs : List (List τ)} {rest : List τ} (hbs : ∀ b ∈ bs, b.length = max size 1)
    (hrest : rest.length < max size 1)
    (h : as.filterMap Arrival.ticket? = bs.flatten ++ rest) : gotFull size as = bs := by
  rw [gotFull, h, filled_flatten_append hbs hrest]

/-- What is known of a feed from the batches that make up the tickets that came: these are
    the batches that got full. -/
theorem keeps_of_history {bs : List (List τ)} {served : List (Batch σ τ)} {g : Feed σ τ}
    (hhistory : history size as = (served, g)) (hcut : g.Cut size) (hidle : g.IsIdle)
    (hbs : ∀ b ∈ bs, b.length = max size 1)
    (hcame : as.filterMap Arrival.ticket? = bs.flatten ++ g.batch) :
    Keeps size as ∧ gotFull size as = bs := by
  have hgot := gotFull_eq hbs hcut.batch hcame
  refine ⟨⟨hhistory ▸ hcut, hhistory ▸ hidle, ?_⟩, hgot⟩
  rw [hgot, hhistory]
  exact hcame

/-- What something that comes does to the line: a batch that gets full stands behind the
    others, or a session gets the last one of a pile, which goes before the others of it. -/
theorem Keeps.concat (h : Keeps size as) (hears : (history size as).2.Hears a) :
    Keeps size (as ++ [a]) ∧
      ((∃ new, gotFull size (as ++ [a]) = gotFull size as ++ new ∧
          line size (as ++ [a]) = line size as ++ new) ∨
        ∃ s b bs, a = .session s ∧ (history size as).2.full = b :: bs ∧
          (history size (as ++ [a])).1 = (history size as).1 ++ [⟨[s], b⟩] ∧
          (history size (as ++ [a])).2.full = bs ∧
          gotFull size (as ++ [a]) = gotFull size as) := by
  have hcut := (h.cut.take a).serve
  have hidle := isIdle_serve ((history size as).2.take size a)
  have hcame : (as ++ [a]).filterMap Arrival.ticket? =
      (gotFull size as).flatten ++ ((history size as).2.batch ++ a.ticket?.toList) := by
    rw [← List.append_assoc, ← h.tickets, List.filterMap_append]
    cases a <;> rfl
  have hlengths : ∀ b ∈ gotFull size as, b.length = max size 1 :=
    fun b hb => length_of_mem_filled hb
  have hnext := history_concat size as a
  have hmoves := moves_take_serve h.cut h.idle hears
  generalize ((history size as).2.take size a).serve = next at hcut hidle hnext hmoves
  obtain ⟨served, g⟩ := next
  cases hmoves with
  | keeps hserved hfull hbatch =>
    obtain ⟨hkeeps, hgot⟩ := keeps_of_history hnext hcut hidle hlengths (by rw [hcame, hbatch])
    refine ⟨hkeeps, .inl ⟨[], by rw [hgot, List.append_nil], ?_⟩⟩
    rw [line, line, hnext, List.append_nil]
    dsimp only at hserved hfull ⊢
    rw [hserved, hfull, List.append_nil]
  | @fills b hb hlength hbatch hline =>
    have hcame' : (as ++ [a]).filterMap Arrival.ticket? =
        (gotFull size as ++ [b]).flatten ++ g.batch := by
      rw [hcame, ← hb, hbatch, List.flatten_append, List.flatten_singleton, List.append_nil]
    obtain ⟨hkeeps, hgot⟩ := keeps_of_history hnext hcut hidle
      (List.forall_mem_append.2 ⟨hlengths, List.forall_mem_singleton.2 hlength⟩) hcame'
    refine ⟨hkeeps, .inl ⟨[b], hgot, ?_⟩⟩
    rw [line, line, hnext, List.map_append, List.append_assoc, List.append_assoc]
    exact congrArg _ hline
  | @serves s b ha hfull hserved hbatch =>
    have hcame' : (as ++ [a]).filterMap Arrival.ticket? =
        (gotFull size as).flatten ++ g.batch := by
      rw [hcame, ha, hbatch]
      exact congrArg _ (List.append_nil _)
    obtain ⟨hkeeps, hgot⟩ := keeps_of_history hnext hcut hidle hlengths hcame'
    refine ⟨hkeeps, .inr ⟨s, b, g.full, ha, hfull, ?_, ?_, hgot⟩⟩
    · rw [hnext, ← hserved]
    · rw [hnext]

theorem Heard.keeps (h : Heard size as) : Keeps size as := by
  induction h with
  | nil => exact keeps_nil size
  | concat _ hears ih => exact (ih.concat hears).1

/-- The batches in line are those that got full. -/
theorem Heard.line_perm (h : Heard size as) : (line size as).Perm (gotFull size as) := by
  induction h with
  | nil =>
    rw [gotFull, List.filterMap_nil, filled, batches]
    exact .refl _
  | @concat as a h hears ih =>
    obtain ⟨_, ⟨new, hgot, hline⟩ | ⟨s, b, bs, _, hfull, hserved, hleft, hgot⟩⟩ :=
      h.keeps.concat hears
    · rw [hgot, hline]
      exact ih.append_right new
    · rw [hgot]
      refine List.Perm.trans ?_ ih
      rw [line, line, hserved, hleft, hfull, List.map_append, List.append_assoc, List.reverse_cons]
      exact List.perm_append_comm.append_left _

/-! ## In turn -/

/-- Full batches are served in turn: those that were served are the first ones that got
    full, in that order. So none was served while an earlier one waited. -/
def InTurn (size : Nat) (as : List (Arrival σ τ)) : Prop :=
  (history size as).1.map (·.tickets) <+: gotFull size as

/-- Sessions are prompt: never do two full batches wait when one comes. -/
def IsPrompt (size : Nat) (as : List (Arrival σ τ)) : Prop :=
  ∀ as' s, as' ++ [.session s] <+: as → (history size as').2.full.length ≤ 1

theorem IsPrompt.of_isPrefix (h : IsPrompt size as) (hinitial : as' <+: as) : IsPrompt size as' :=
  fun _ s hs => h _ s (hs.trans hinitial)

/-- If sessions are prompt, the batches in line are in the order in which they got full. -/
theorem Heard.line_eq (h : Heard size as) (hprompt : IsPrompt size as) :
    line size as = gotFull size as := by
  induction h with
  | nil =>
    rw [gotFull, List.filterMap_nil, filled, batches]
    rfl
  | @concat as a h hears ih =>
    have hline := ih (hprompt.of_isPrefix (List.prefix_append as [a]))
    obtain ⟨_, ⟨new, hgot, hnew⟩ | ⟨s, b, bs, rfl, hfull, hserved, hleft, hgot⟩⟩ :=
      h.keeps.concat hears
    · rw [hgot, hnew, hline]
    · have hfew := hprompt as s List.prefix_rfl
      rw [hfull, List.length_cons] at hfew
      obtain rfl : bs = [] := List.eq_nil_of_length_eq_zero (by omega)
      rw [hgot, ← hline, line, line, hserved, hleft, hfull, List.map_append, List.append_assoc]
      rfl

theorem Heard.inTurn (h : Heard size as) (hprompt : IsPrompt size as) : InTurn size as := by
  rw [InTurn, ← h.line_eq hprompt]
  exact List.prefix_append _ _

/-- A session that comes while batches are full gets the last one of them, and they stay in
    turn only if that is the first one as well. -/
theorem Heard.length_le_one {s : σ} (h : Heard size (as ++ [.session s]))
    (hprompt : IsPrompt size as) (hnodup : (as.filterMap Arrival.ticket?).Nodup)
    (hturn : InTurn size (as ++ [.session s])) : (history size as).2.full.length ≤ 1 := by
  obtain ⟨h, hears⟩ := h.of_concat
  match hfull : (history size as).2.full with
  | [] => exact Nat.zero_le 1
  | [b] => exact Nat.le_refl 1
  | b :: c :: bs =>
    have hgot : gotFull size (as ++ [.session s]) = gotFull size as := by
      rw [gotFull, List.filterMap_append]
      exact congrArg _ (List.append_nil _)
    have hline := h.line_eq hprompt
    rw [line, hfull] at hline
    rw [InTurn, history_concat, take_session_serve h.keeps.idle hears hfull, hgot, ← hline,
      List.map_append, List.prefix_append_right_inj] at hturn
    -- The last of the pile would be the first of it.
    have hmem : b ∈ (c :: bs).reverse := by
      rw [List.reverse_cons] at hturn
      have hne : (c :: bs).reverse ≠ [] := by simp
      obtain ⟨d, ds, hds⟩ := List.exists_cons_of_ne_nil hne
      rw [hds, List.cons_append] at hturn
      have hbd : b = d := (List.cons_prefix_cons.1 hturn).1
      rw [hds, hbd]
      exact List.mem_cons_self
    have hpile : (b :: c :: bs).Nodup := by
      have hnodup : (gotFull size as).Nodup := nodup_filled hnodup
      rw [← hline] at hnodup
      exact List.nodup_reverse.1 (List.nodup_append.1 hnodup).2.1
    exact absurd (List.mem_reverse.1 hmem) (List.nodup_cons.1 hpile).1

/-- If full batches are always served in turn, and no ticket comes twice, sessions are
    prompt. -/
theorem Heard.isPrompt (h : Heard size as) (hnodup : (as.filterMap Arrival.ticket?).Nodup)
    (hturn : ∀ as', as' <+: as → InTurn size as') : IsPrompt size as := by
  induction as using List.reverseRecOn with
  | nil =>
    intro as' s hs
    simp at hs
  | append_singleton as a ih =>
    have hinitial := List.prefix_append as [a]
    have hbefore := hnodup.sublist (hinitial.sublist.filterMap _)
    have hprompt := ih (h.of_isPrefix hinitial) hbefore fun as' hs => hturn as' (hs.trans hinitial)
    intro as' s hs
    rcases List.prefix_concat_iff.1 hs with heq | hs
    · obtain ⟨rfl, hlast⟩ := List.append_inj' heq rfl
      obtain rfl := (List.cons.inj hlast).1
      exact h.length_le_one hprompt hbefore (hturn _ List.prefix_rfl)
    · exact hprompt as' s hs

end Feed

namespace Intake

variable {size : Nat} {i : Intake σ τ}

/-- What a feed has served and what it keeps can be told from what came, all of which it
    listened to. -/
theorem Reachable.heard (h : i.Reachable size) :
    Feed.history size i.arrivals = (i.served, i.feed) ∧ Feed.Heard size i.arrivals := by
  induction h with
  | refl => exact ⟨rfl, .nil⟩
  | tail _ hstep ih =>
    cases hstep with
    | receive j a _ _ hears hgives =>
      obtain ⟨hhistory, hheard⟩ := ih
      obtain ⟨hfeed, harrivals, hserved, _⟩ := hgives.frame
      simp only [read, hfeed, harrivals, hserved]
      refine ⟨?_, .concat hheard (by rw [hhistory]; exact hears)⟩
      rw [Feed.history_concat, hhistory]
    | _ => exact ih

/-- In which order full batches are served. -/
structure ServesLastFull (size : Nat) (i : Intake σ τ) : Prop where
  /-- What was served can be told from what came. -/
  history : Feed.history size i.arrivals = (i.served, i.feed)
  /-- The batches that got full were served, or wait. -/
  line : (i.served.map (·.tickets) ++ i.feed.full.reverse).Perm (Feed.gotFull size i.arrivals)
  /-- A session that comes while some wait gets the last of them. -/
  last : ∀ as s, as ++ [.session s] <+: i.arrivals →
    ∀ b bs, (Feed.history size as).2.full = b :: bs →
      Feed.history size (as ++ [.session s]) = ((Feed.history size as).1 ++ [⟨[s], b⟩],
        { (Feed.history size as).2 with full := bs, waiting := [] })
  /-- So they are served in turn as long as no two of them wait when a session comes, -/
  inTurn : Feed.IsPrompt size i.arrivals → ∀ as, as <+: i.arrivals → Feed.InTurn size as
  /-- and only then, if no ticket comes twice. -/
  prompt : (i.arrivals.filterMap Arrival.ticket?).Nodup →
    (∀ as, as <+: i.arrivals → Feed.InTurn size as) → Feed.IsPrompt size i.arrivals

/-- Full batches are served the last one first, which is in turn if and only if no two of
    them ever wait for a session. -/
theorem serves_last_full (h : i.Reachable size) : i.ServesLastFull size := by
  obtain ⟨hhistory, hheard⟩ := h.heard
  refine ⟨hhistory, ?_, fun as s hs b bs hfull => ?_, fun hprompt as hs => ?_, hheard.isPrompt⟩
  · have hline := hheard.line_perm
    rwa [Feed.line, hhistory] at hline
  · obtain ⟨hbefore, hears⟩ := (hheard.of_isPrefix hs).of_concat
    rw [Feed.history_concat, Feed.take_session_serve hbefore.keeps.idle hears hfull]
  · exact (hheard.of_isPrefix hs).inTurn (hprompt.of_isPrefix hs)

/-! ### Batches of one ticket -/

/-- As long as neither stream is closed, tickets and sessions may come in any order. -/
theorem reachable_of_open (size : Nat) (as : List (Arrival σ τ))
    (h : ∀ a ∈ as, a.ticket?.isSome ∨ a.session?.isSome) :
    (⟨.start, .start, (Feed.history size as).2, as, (Feed.history size as).1, false⟩ :
        Intake σ τ).Reachable size ∧
      (Feed.history size as).2.ticketsOpen = true ∧
      (Feed.history size as).2.sessionsOpen = true := by
  induction as using List.reverseRecOn with
  | nil => exact ⟨.refl, rfl, rfl⟩
  | append_singleton as a ih =>
    obtain ⟨hreach, htickets, hsessions⟩ := ih fun b hb => h b (List.mem_append_left [a] hb)
    have hgoes : (Feed.history size as).2.isStopped = false := by
      rw [Feed.isStopped, hsessions]
      rfl
    obtain ⟨hticketsOpen, hsessionsOpen⟩ := ((Feed.history size as).2.take size a).serve_streams
    rw [Feed.history_concat, hticketsOpen, hsessionsOpen]
    cases a with
    | ticket t =>
      have hears : (Feed.history size as).2.Hears (.ticket t) := htickets
      refine ⟨(hreach.tail (.sendTicket _ t rfl)).tail
        (.receive _ _ (.ticket t) rfl hgoes hears (.ticket _ t [] rfl)), ?_⟩
      rw [Feed.take, if_pos htickets, Feed.addTicket_ticketsOpen, Feed.addTicket_sessionsOpen]
      exact ⟨htickets, hsessions⟩
    | session s =>
      have hears : (Feed.history size as).2.Hears (.session s) := hsessions
      refine ⟨(hreach.tail (.sendSession _ s rfl)).tail
        (.receive _ _ (.session s) rfl hgoes hears (.session _ s [] rfl)), ?_⟩
      rw [Feed.take, if_pos hsessions]
      exact ⟨htickets, hsessions⟩
    | ticketsClosed => simpa [Arrival.ticket?, Arrival.session?] using h .ticketsClosed (by simp)
    | sessionsClosed => simpa [Arrival.ticket?, Arrival.session?] using h .sessionsClosed (by simp)

/-- Each of two tickets is served before the next one comes. -/
theorem serves_last_full_in_turn :
    let i : Intake String Nat := ⟨.start, .start, .start,
      [.ticket 1, .session "s", .ticket 2, .session "t"], [⟨["s"], [1]⟩, ⟨["t"], [2]⟩], false⟩
    i.Reachable 1 ∧ i.ServesLastFull 1 ∧ Feed.IsPrompt 1 i.arrivals := by
  intro i
  have hreach : i.Reachable 1 := (reachable_of_open 1 i.arrivals (by decide)).1
  have hserves := serves_last_full hreach
  refine ⟨hreach, hserves, hserves.prompt (by decide) fun as hs => ?_⟩
  have hall : ∀ as ∈ i.arrivals.inits,
      (Feed.history 1 as).1.map (·.tickets) <+: Feed.gotFull 1 as := by decide +kernel
  exact hall as (List.mem_inits as i.arrivals |>.2 hs)

/-- Two tickets wait for a session, and the second one is served first. -/
theorem overtakes_first_full :
    ∃ i : Intake String Nat, i.Reachable 1 ∧
      i.arrivals = [.ticket 1, .ticket 2, .session "s", .session "t"] ∧
      i.served = [⟨["s"], [2]⟩, ⟨["t"], [1]⟩] ∧ Feed.gotFull 1 i.arrivals = [[1], [2]] ∧
      ¬ Feed.InTurn 1 i.arrivals := by
  refine ⟨_, (reachable_of_open 1 [.ticket 1, .ticket 2, .session "s", .session "t"]
    (by decide)).1, rfl, rfl, by decide +kernel, ?_⟩
  rw [Feed.InTurn]
  decide +kernel

end Intake

end Matchmaking
