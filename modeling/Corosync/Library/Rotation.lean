import Mathlib.Algebra.BigOperators.Fin
import Mathlib.Algebra.Group.Fin.Basic
import Mathlib.Data.List.GetD
import Mathlib.Data.Nat.ModEq

/-!
# Counts along a rotation

A ring of `n` stations is visited in cyclic order. Each visit replaces the station's count and is
appended to a log. The counts of the stations then always add up to the last `n` entries of the
log, so a bound on the sum of the counts is a bound on every `n` consecutive visits.
-/

namespace Corosync.Library

open List Function

/-- A sum with one term replaced. -/
theorem sum_update_add {ι : Type*} [Fintype ι] [DecidableEq ι] (f : ι → ℕ) (i : ι) (b : ℕ) :
    ∑ j, update f i b j + f i = ∑ j, f j + b := by
  rw [Finset.sum_update_of_mem (Finset.mem_univ i), ← Finset.add_sum_erase _ f (Finset.mem_univ i),
    Finset.sdiff_singleton_eq_erase]
  omega

/-- A value read off an updated family, at the updated place and elsewhere. -/
theorem apply_update_eq {ι α β : Type*} [DecidableEq ι] (f : α → β) (g : ι → α) (i : ι) (a : α) :
    (fun j => f (update g i a j)) = update (fun j => f (g j)) i (f a) := by
  funext j
  exact apply_update (fun _ => f) g i a j

/-- A value that an update does not change. -/
theorem apply_update_same {ι α β : Type*} [DecidableEq ι] (f : α → β) (g : ι → α) (i : ι) (a : α)
    (hsame : f a = f (g i)) (j : ι) : f (update g i a j) = f (g j) := by
  have happly := congrFun (apply_update_eq f g i a) j
  rw [happly, hsame]
  exact congrFun (update_eq_self i fun j => f (g j)) j

/-- The sum of the last `n` entries of a log. -/
def recent (n : ℕ) (log : List ℕ) : ℕ := (log.drop (log.length - n)).sum

/-- One more entry enters the sum and the entry `n` places back leaves it. -/
theorem recent_concat {n : ℕ} (hn : 0 < n) (log : List ℕ) (x : ℕ) :
    recent n (log ++ [x]) + (if n ≤ log.length then log.getD (log.length - n) 0 else 0) =
      recent n log + x := by
  unfold recent
  split
  · rename_i hlen
    have hlt : log.length - n < log.length := by omega
    rw [length_append, length_singleton,
      drop_append_of_le_length (by omega), sum_append, sum_singleton,
      drop_eq_getElem_cons hlt, sum_cons, getD_eq_getElem _ _ hlt]
    have hsucc : log.length + 1 - n = log.length - n + 1 := by omega
    rw [hsucc]
    omega
  · rename_i hlen
    have hnew : (log ++ [x]).length - n = 0 := by
      rw [length_append, length_singleton]
      omega
    have hold : log.length - n = 0 := by omega
    rw [hnew, hold, drop_zero, drop_zero, sum_append, sum_singleton]
    omega

/-- A list is an infix of `log ++ [x]` when it is one of `log`, or ends with the new entry. -/
theorem infix_concat {α : Type*} {w log : List α} {x : α} (hw : w <:+: log ++ [x]) :
    w <:+: log ∨ w <:+ log ++ [x] := by
  obtain ⟨front, back, heq⟩ := hw
  rcases eq_nil_or_concat back with rfl | ⟨back, y, rfl⟩
  · exact .inr ⟨front, by simpa using heq⟩
  · rw [concat_eq_append, ← append_assoc] at heq
    exact .inl ⟨front, back, (append_inj' heq rfl).1⟩

/-- A suffix of length `n` is what `recent n` sums. -/
theorem sum_of_suffix {n : ℕ} {w log : List ℕ} (hw : w <:+ log) (hlen : w.length = n) :
    w.sum = recent n log := by
  obtain ⟨front, rfl⟩ := hw
  have hdrop : (front ++ w).length - n = front.length := by
    rw [length_append]
    omega
  rw [recent, hdrop, drop_left]

section Tracks

variable {n : ℕ} [NeZero n]

/-- The station visited at time `k`. -/
def station (n : ℕ) [NeZero n] (k : ℕ) : Fin n := Fin.ofNat n k

/-- Times less than a rotation apart belong to different stations. -/
theorem station_inj {k l : ℕ} (heq : station n k = station n l) (hkl : k ≤ l) (hlt : l < k + n) :
    k = l := by
  have hmod : k % n = l % n := by simpa [station, Fin.ext_iff] using heq
  have hdvd : n ∣ l - k := (Nat.modEq_iff_dvd' hkl).mp hmod
  have hzero : l - k = 0 := Nat.eq_zero_of_dvd_of_lt hdvd (by omega)
  omega

/-- After a rotation it is the turn of the same station. -/
theorem station_add_self (k : ℕ) : station n (k + n) = station n k := by
  simp [station, Fin.ext_iff]

/-- The station before the one of a time is the one of the time before. -/
theorem station_succ_sub_one (k : ℕ) : station n (k + 1) - 1 = station n k := by
  have hsucc : station n (k + 1) = station n k + 1 := by
    simp [station, Fin.ext_iff, Fin.val_add]
  rw [hsucc]
  exact add_sub_cancel_right _ 1

/-- The station after the one of a time is the one of the time after. -/
theorem eq_station_succ {i : Fin n} {k : ℕ} (hprev : station n k = i - 1) :
    i = station n (k + 1) := by
  have hback := station_succ_sub_one (n := n) k
  rw [hprev] at hback
  have hcancel : i - 1 + 1 = station n (k + 1) - 1 + 1 := by rw [hback]
  rwa [sub_add_cancel, sub_add_cancel] at hcancel

/-- Seen from time `v`, every station had a turn during the last rotation, or has not had its
first one. -/
theorem exists_turn (base v : ℕ) (i : Fin n) :
    ∃ k, station n (base + k) = i ∧ ((k ≤ v ∧ v < k + n) ∨ (v < k ∧ k < n)) := by
  have hn : 0 < n := Nat.pos_of_ne_zero (NeZero.ne n)
  obtain ⟨r, hr, hstation⟩ : ∃ r < n, station n (base + r) = i := by
    refine ⟨(i.val + (n - base % n)) % n, Nat.mod_lt _ hn, ?_⟩
    have hbase : base % n ≤ n := (Nat.mod_lt _ hn).le
    have hdiv := Nat.div_add_mod base n
    apply Fin.ext
    simp only [station, Fin.val_ofNat, Nat.add_mod_mod]
    have hsum : base + (i.val + (n - base % n)) = i.val + n * (base / n + 1) := by
      rw [Nat.mul_add]
      omega
    rw [hsum, Nat.add_mul_mod_self_left, Nat.mod_eq_of_lt i.isLt]
  by_cases hrv : r ≤ v
  · have hmod := Nat.mod_lt (v - r) hn
    have hdiv := Nat.div_add_mod (v - r) n
    refine ⟨r + n * ((v - r) / n), ?_, .inl (by omega)⟩
    rw [← hstation]
    simp [station, Fin.ext_iff, ← Nat.add_assoc]
  · exact ⟨r, hstation, .inr (by omega)⟩

/-- The next turn of a station comes within a rotation. -/
theorem exists_next_turn (base v : ℕ) (i : Fin n) :
    ∃ k, v < k ∧ k ≤ v + n ∧ station n (base + k) = i := by
  obtain ⟨k, hstation, ⟨hle, hlt⟩ | ⟨hlt, hkn⟩⟩ := exists_turn base v i
  · refine ⟨k + n, hlt, by omega, ?_⟩
    rw [← Nat.add_assoc, station_add_self]
    exact hstation
  · exact ⟨k, hlt, by omega, hstation⟩

/-- The counts are the last entries of the log, entry `k` being the visit at time `start + k`;
stations not visited yet count zero. -/
structure Tracks (start : ℕ) (count : Fin n → ℕ) (log : List ℕ) : Prop where
  recent : ∀ k < log.length, log.length ≤ k + n → log.getD k 0 = count (station n (start + k))
  fresh : ∀ k, log.length ≤ k → k < n → count (station n (start + k)) = 0
  sum : ∑ i, count i = Library.recent n log

/-- With nothing logged and nothing counted the counts track the log. -/
theorem Tracks.init (start : ℕ) : Tracks start (fun _ : Fin n => 0) [] where
  recent := by simp
  fresh := by simp
  sum := by simp [Library.recent]

/-- A visit is logged. -/
theorem Tracks.visit {start : ℕ} {count : Fin n → ℕ} {log : List ℕ}
    (htracks : Tracks start count log) (x : ℕ) :
    Tracks start (update count (station n (start + log.length)) x) (log ++ [x]) where
  recent := by
    intro k hk hnear
    rw [length_append, length_singleton] at hk hnear
    by_cases hlast : k = log.length
    · subst hlast
      simp
    · have hne : station n (start + k) ≠ station n (start + log.length) := fun heq =>
        hlast (by have := station_inj heq (by omega) (by omega); omega)
      rw [update_of_ne hne, getD_append _ _ _ _ (by omega)]
      exact htracks.recent k (by omega) (by omega)
  fresh := by
    intro k hk hlt
    rw [length_append, length_singleton] at hk
    have hne : station n (start + k) ≠ station n (start + log.length) := fun heq => by
      have := station_inj heq.symm (by omega) (by omega)
      omega
    rw [update_of_ne hne]
    exact htracks.fresh k (by omega) hlt
  sum := by
    have hn : 0 < n := Nat.pos_of_ne_zero (NeZero.ne n)
    have hupdate := sum_update_add count (station n (start + log.length)) x
    have hrecent := recent_concat hn log x
    -- the count that is replaced is the entry that leaves the sum
    have hleaves : count (station n (start + log.length)) =
        if n ≤ log.length then log.getD (log.length - n) 0 else 0 := by
      split
      · rename_i hlen
        have hback : start + log.length = start + (log.length - n) + n := by omega
        rw [htracks.recent (log.length - n) (by omega) (by omega), hback, station_add_self]
      · exact htracks.fresh log.length le_rfl (by omega)
    rw [htracks.sum, hleaves] at hupdate
    omega

/-- A bound on the counts before and after a visit bounds every `n` consecutive visits. -/
theorem Tracks.infix_le {start bound : ℕ} {count : Fin n → ℕ} {log : List ℕ} {x : ℕ}
    (htracks : Tracks start count (log ++ [x])) (hsum : ∑ i, count i ≤ bound)
    (hold : ∀ w, w <:+: log → w.length = n → w.sum ≤ bound)
    {w : List ℕ} (hw : w <:+: log ++ [x]) (hlen : w.length = n) : w.sum ≤ bound := by
  rcases infix_concat hw with hwithin | hsuffix
  · exact hold w hwithin hlen
  · rw [sum_of_suffix hsuffix hlen, ← htracks.sum]
    exact hsum

end Tracks

end Corosync.Library
