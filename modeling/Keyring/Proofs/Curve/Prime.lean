import Keyring.Curve.Point
import Mathlib.FieldTheory.Finite.Basic
import Mathlib.Tactic.NormNum.Prime
import Mathlib.Tactic.ReduceModChar

/-!
# The field prime and the group order are prime

A number `N` is prime if the primes of some set divide `N - 1`, their product is above the square
root of `N`, and the powers of 2 modulo `N` show that each of them divides the order of 2 modulo
every prime factor of `N`. So it is enough to know the large factors of `N - 1`; they are proved
prime in the same way, down to numbers that trial division settles.
-/

namespace Keyring.Curve

/-- If `2 ^ (N - 1)` is one modulo `N` and `2 ^ ((N - 1) / q)` differs from one by a unit, the prime
`q` divides the order of two modulo every prime factor of `N`. -/
theorem dvd_orderOf_two {N l q : ℕ} [Fact l.Prime] (hl : l ∣ N) (hq : q.Prime) (hdvd : q ∣ N - 1)
    (hpow : (2 : ZMod N) ^ (N - 1) = 1) (hunit : IsUnit ((2 : ZMod N) ^ ((N - 1) / q) - 1)) :
    q ∣ orderOf (2 : ZMod l) := by
  have hone : (2 : ZMod l) ^ (N - 1) = 1 := by
    have h := congrArg (ZMod.castHom hl (ZMod l)) hpow
    rwa [map_pow, map_ofNat, map_one] at h
  have hne : (2 : ZMod l) ^ ((N - 1) / q) ≠ 1 := by
    have h := (hunit.map (ZMod.castHom hl (ZMod l))).ne_zero
    rwa [map_sub, map_pow, map_ofNat, map_one, sub_ne_zero] at h
  by_contra hnot
  have hcop : Nat.Coprime (orderOf (2 : ZMod l)) q :=
    ((Nat.Prime.coprime_iff_not_dvd hq).2 hnot).symm
  have hord : orderOf (2 : ZMod l) ∣ q * ((N - 1) / q) := by
    rw [Nat.mul_div_cancel' hdvd]
    exact orderOf_dvd_of_pow_eq_one hone
  exact hne (orderOf_dvd_iff_pow_eq_one.1 (hcop.dvd_of_dvd_mul_left hord))

/-- A number is prime if known prime factors of its predecessor have a product above its square
root. -/
theorem prime_of_factors {N : ℕ} (s : Finset ℕ) (h1 : 1 < N) (hlarge : N < (∏ q ∈ s, q) ^ 2)
    (hpow : (2 : ZMod N) ^ (N - 1) = 1)
    (hs : ∀ q ∈ s, q.Prime ∧ q ∣ N - 1 ∧ IsUnit ((2 : ZMod N) ^ ((N - 1) / q) - 1)) : N.Prime := by
  by_contra hN
  have hprime : N.minFac.Prime := Nat.minFac_prime (by omega)
  have : Fact N.minFac.Prime := ⟨hprime⟩
  have hne : (2 : ZMod N.minFac) ≠ 0 := by
    intro h0
    have h := congrArg (ZMod.castHom N.minFac_dvd (ZMod N.minFac)) hpow
    rw [map_pow, map_ofNat, map_one, h0, zero_pow (by omega)] at h
    exact zero_ne_one h
  have hprod : ∏ q ∈ s, q ∣ N.minFac - 1 := by
    refine Finset.prod_primes_dvd _ (fun q hq => (hs q hq).1.prime) fun q hq => ?_
    obtain ⟨hq, hdvd, hunit⟩ := hs q hq
    exact (dvd_orderOf_two N.minFac_dvd hq hdvd hpow hunit).trans
      (ZMod.orderOf_dvd_card_sub_one hne)
  have hle : ∏ q ∈ s, q ≤ N.minFac - 1 := Nat.le_of_dvd (Nat.sub_pos_of_lt hprime.one_lt) hprod
  have hsq : (∏ q ∈ s, q) ^ 2 ≤ N :=
    (Nat.pow_le_pow_left (hle.trans (Nat.sub_le _ _)) 2).trans (Nat.minFac_sq_le_self (by omega) hN)
  omega

/-! ### The field prime -/

theorem prime_255515944373312847190720520512484175977 :
    Nat.Prime 255515944373312847190720520512484175977 := by
  refine prime_of_factors {107590001, 7240687, 96557} (by norm_num) (by norm_num)
    (by reduce_mod_char) ?_
  simp only [Finset.forall_mem_insert, Finset.mem_singleton, forall_eq]
  exact ⟨⟨by norm_num, by norm_num,
      .of_mul_eq_one 235081362755335172132203715226758066727 (by reduce_mod_char)⟩,
    ⟨by norm_num, by norm_num,
      .of_mul_eq_one 175544394104025381149509263364095140941 (by reduce_mod_char)⟩,
    ⟨by norm_num, by norm_num,
      .of_mul_eq_one 52333299885033245219942804006191421971 (by reduce_mod_char)⟩⟩

theorem prime_205115282021455665897114700593932402728804164701536103180137503955397371 :
    Nat.Prime 205115282021455665897114700593932402728804164701536103180137503955397371 := by
  refine prime_of_factors {255515944373312847190720520512484175977}
    (by norm_num) (by norm_num) (by reduce_mod_char) ?_
  simp only [Finset.mem_singleton, forall_eq]
  exact ⟨prime_255515944373312847190720520512484175977, by norm_num,
      .of_mul_eq_one 81475874003799270243122483189086420723726815346591292526890606927317739
        (by reduce_mod_char)⟩

theorem prime_prime : Nat.Prime prime := by
  rw [show prime =
    115792089237316195423570985008687907853269984665640564039457584007908834671663 by decide]
  refine prime_of_factors {205115282021455665897114700593932402728804164701536103180137503955397371}
    (by norm_num) (by norm_num) (by reduce_mod_char) ?_
  simp only [Finset.mem_singleton, forall_eq]
  exact ⟨prime_205115282021455665897114700593932402728804164701536103180137503955397371,
    by norm_num,
    .of_mul_eq_one 38738227534097492269493948901333532538630784921480042032654553727346127695815
      (by reduce_mod_char)⟩

/-! ### The group order -/

theorem prime_107361793816595537 : Nat.Prime 107361793816595537 := by
  refine prime_of_factors {4681609, 85831} (by norm_num) (by norm_num) (by reduce_mod_char) ?_
  simp only [Finset.forall_mem_insert, Finset.mem_singleton, forall_eq]
  exact ⟨⟨by norm_num, by norm_num,
      .of_mul_eq_one 44826003584452600 (by reduce_mod_char)⟩,
    ⟨by norm_num, by norm_num,
      .of_mul_eq_one 89382073196192802 (by reduce_mod_char)⟩⟩

theorem prime_297159362677 : Nat.Prime 297159362677 := by
  refine prime_of_factors {1627771} (by norm_num) (by norm_num) (by reduce_mod_char) ?_
  simp only [Finset.mem_singleton, forall_eq]
  exact ⟨by norm_num, by norm_num,
      .of_mul_eq_one 44169280672 (by reduce_mod_char)⟩

theorem prime_545358713 : Nat.Prime 545358713 := by
  refine prime_of_factors {28181} (by norm_num) (by norm_num) (by reduce_mod_char) ?_
  simp only [Finset.mem_singleton, forall_eq]
  exact ⟨by norm_num, by norm_num,
      .of_mul_eq_one 160797069 (by reduce_mod_char)⟩

theorem prime_29047611873442575647497758179 : Nat.Prime 29047611873442575647497758179 := by
  refine prime_of_factors {297159362677, 545358713} (by norm_num) (by norm_num) (by reduce_mod_char)
    ?_
  simp only [Finset.forall_mem_insert, Finset.mem_singleton, forall_eq]
  exact ⟨⟨prime_297159362677, by norm_num,
      .of_mul_eq_one 7881196461825673388358983901 (by reduce_mod_char)⟩,
    ⟨prime_545358713, by norm_num,
      .of_mul_eq_one 9643653164146849936640551407 (by reduce_mod_char)⟩⟩

theorem prime_341948486974166000522343609283189 : Nat.Prime 341948486974166000522343609283189 := by
  refine prime_of_factors {29047611873442575647497758179} (by norm_num) (by norm_num)
    (by reduce_mod_char) ?_
  simp only [Finset.mem_singleton, forall_eq]
  exact ⟨prime_29047611873442575647497758179, by norm_num,
      .of_mul_eq_one 230912421032721991545077801069578 (by reduce_mod_char)⟩

theorem prime_order : Nat.Prime order := by
  rw [show order =
    115792089237316195423570985008687907852837564279074904382605163141518161494337 by decide]
  refine prime_of_factors {341948486974166000522343609283189, 107361793816595537}
    (by norm_num) (by norm_num) (by reduce_mod_char) ?_
  simp only [Finset.forall_mem_insert, Finset.mem_singleton, forall_eq]
  exact ⟨⟨prime_341948486974166000522343609283189, by norm_num,
      .of_mul_eq_one 57112704531168816596589732607440886458891436705097388389849158079043094771009
        (by reduce_mod_char)⟩,
    ⟨prime_107361793816595537, by norm_num,
      .of_mul_eq_one 75882924931766611973272472284568680993272073599073922898565096152986752117873
        (by reduce_mod_char)⟩⟩

end Keyring.Curve
