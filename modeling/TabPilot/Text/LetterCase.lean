import TabPilot.Text.Ranges

set_option autoImplicit false

/-! # Upper and lower case

The case mappings of Unicode, character by character, with the characters that turn into
several ones, and the lower case of whole texts, where a capital sigma at the end of a word
becomes a final sigma. `alike` lists the characters that differ from a given one in case
alone.
-/

namespace TabPilot.Text

def lowerRuns : Shifts := Shifts.ofText
  "1t.q.1.w 3j.n.1.w o.7.1.w 14.o.2.1 1e.3.2.1 7.8.2.1 h.n.2.1 1a.1.1.-3d 1.3.2.1 8.1.1.5u
    1.2.2.1 4.1.1.5q 1.1.1.1 2.2.1.5p 2.1.1.1 3.1.1.27 1.1.1.5m 1.1.1.5n 1.1.1.1 2.1.1.5p
    1.1.1.5r 2.1.1.5v 1.1.1.5t 1.1.1.1 4.1.1.5v 1.1.1.5x 2.1.1.5y 1.3.2.1 6.1.1.62 1.1.1.1
    2.1.1.62 3.1.1.1 2.1.1.62 1.1.1.1 2.2.1.61 2.2.2.1 4.1.1.63 1.1.1.1 4.1.1.1 8.1.1.2
    1.1.1.1 2.1.1.2 1.1.1.1 2.1.1.2 1.9.2.1 j.9.2.1 j.1.1.2 1.2.2.1 4.1.1.-2p 1.1.1.-1k
    1.k.2.1 14.1.1.-3m 2.9.2.1 o.1.1.8bv 1.1.1.1 2.1.1.-4j 1.1.1.8bs 3.1.1.1 2.1.1.-5f
    1.1.1.1x 1.1.1.1z 1.5.2.1 8a.2.2.1 6.1.1.1 9.1.1.38 7.1.1.12 2.3.1.11 4.1.1.1s 2.2.1.1r
    3.h.1.w i.9.1.w 18.1.1.8 9.c.2.1 s.1.1.-1o 3.1.1.1 2.1.1.-7 1.1.1.1 3.3.1.-3m 3.g.1.28
    g.w.1.w 28.h.2.1 16.r.2.1 1i.1.1.f 1.7.2.1 f.1c.2.1 2p.12.1.1c 29b.12.1.5ls 13.1.1.5ls
    6.1.1.5ls k3.28.1.tzk 28.6.1.8 1p5.1.1.1 7.17.1.-2bk 19.3.1.-2bk 8z.23.2.1 4e.1.1.-5vj
    2.1c.2.1 2w.8.1.-8 g.6.1.-8 g.8.1.-8 g.8.1.-8 g.6.1.-8 h.4.2.-8 f.8.1.-8 w.8.1.-8 g.8.1.-8
    g.8.1.-8 g.2.1.-8 2.2.1.-22 2.1.1.-9 c.4.1.-2e 4.1.1.-9 c.2.1.-8 2.2.1.-2s e.2.1.-8
    2.2.1.-34 2.1.1.-7 c.2.1.-3k 2.2.1.-3i 2.1.1.-9 8a.1.1.-5st 4.1.1.-6gv 1.1.1.-6di 7.1.1.s
    1a.g.1.g z.1.1.1 mr.q.1.q 1fu.1c.1.1c 2o.1.1.1 2.1.1.-8af 1.1.1.-2xy 1.1.1.-89z 3.3.2.1
    6.1.1.-8bg 1.1.1.-8al 1.1.1.-8bj 1.1.1.-8bi 2.1.1.1 3.1.1.1 9.2.1.-8cf 2.1e.2.1 2z.2.2.1
    7.1.1.1 nym.n.2.1 1s.e.2.1 4i.7.2.1 g.v.2.1 1z.2.2.1 4.1.1.-r9g 1.5.2.1 d.1.1.1 2.1.1.-wmg
    3.2.2.1 6.a.2.1 k.1.1.-wn8 1.1.1.-wnj 1.1.1.-wnf 1.1.1.-wn5 1.1.1.-wn8 2.1.1.-wlu
    1.1.1.-wmi 1.1.1.-wlx 1.1.1.ps 1.8.2.1 g.1.1.-1c 1.1.1.-wn7 1.1.1.-raw 1.2.2.1 4.1.1.-wo7
    1.8.2.1 g.1.1.-wu9 p.1.1.1 h7w.q.1.w yn.14.1.14 4w.10.1.14 5c.b.1.13 c.f.1.13 g.7.1.13
    8.2.1.13 1d8.1f.1.1s 5s.m.1.w 28g.w.1.w gww.w.1.w 2o.p.1.r o68.y.1.y"

def upperRuns : Shifts := Shifts.ofText
  "2p.q.1.-w 2c.1.1.kn 17.n.1.-w o.7.1.-w 7.1.1.3d 2.o.2.-1 1c.1.1.-6g 2.3.2.-1 7.8.2.-1
    h.n.2.-1 1b.3.2.-1 5.1.1.-8c 1.1.1.5f 3.2.2.-1 5.1.1.-1 4.1.1.-1 6.1.1.-1 3.1.1.2p
    4.1.1.-1 1.1.1.4j 1.1.1.wu9 3.1.1.3m 3.3.2.-1 7.1.1.-1 5.1.1.-1 3.1.1.-1 4.2.2.-1 5.1.1.-1
    4.1.1.-1 2.1.1.1k 6.1.1.-1 1.1.1.-2 2.1.1.-1 1.1.1.-2 2.1.1.-1 1.1.1.-2 2.8.2.-1 f.1.1.-27
    2.9.2.-1 j.1.1.-1 1.1.1.-2 2.1.1.-1 4.k.2.-1 16.9.2.-1 p.1.1.-1 3.2.1.8cf 3.1.1.-1
    5.5.2.-1 9.1.1.8bj 1.1.1.8bg 1.1.1.8bi 1.1.1.-5u 1.1.1.-5q 2.2.1.-5p 3.1.1.-5m 2.1.1.-5n
    1.1.1.wnj 4.1.1.-5p 1.1.1.wnf 2.1.1.-5r 1.1.1.wo7 1.1.1.wmg 1.1.1.wn8 2.1.1.-5t 1.1.1.-5v
    1.1.1.wn8 1.1.1.8af 1.1.1.wn5 3.1.1.-5v 2.1.1.8al 1.1.1.-5x 3.1.1.-5y 8.1.1.89z 3.1.1.-62
    2.1.1.wn7 1.1.1.-62 4.1.1.wmi 1.1.1.-62 1.1.1.-1x 1.2.1.-61 2.1.1.-1z 6.1.1.-63 b.1.1.wlx
    1.1.1.wlu 4n.1.1.2c 18.2.2.-1 6.1.1.-1 4.3.1.3m 1d.1.1.-12 1.3.1.-11 4.h.1.-w h.1.1.-v
    1.9.1.-w 9.1.1.-1s 1.2.1.-1r 3.1.1.-1q 1.1.1.-1l 4.1.1.-1b 1.1.1.-1i 1.1.1.-8 2.c.2.-1
    n.1.1.-2e 1.1.1.-28 1.1.1.7 1.1.1.-38 2.1.1.-2o 3.1.1.-1 3.1.1.-1 1h.w.1.-w w.g.1.-28
    h.h.2.-1 16.r.2.-1 1j.7.2.-1 d.1.1.-f 2.1c.2.-1 40.12.1.-1c 29b.17.1.2bk 19.3.1.2bk
    l7.6.1.-8 1oo.1.1.-4tq 1.1.1.-4tp 1.1.1.-4tg 1.2.1.-4te 2.1.1.-4tf 1.1.1.-4t8 1.1.1.-4rp
    1.1.1.r7m 2.1.1.-1 6n.1.1.r9g 4.1.1.2xy h.1.1.raw 37.23.2.-1 4a.1.1.-1n 6.1c.2.-1 2n.8.1.8
    g.6.1.8 g.8.1.8 g.8.1.8 g.6.1.8 h.4.2.8 f.8.1.8 g.2.1.22 2.4.1.2e 4.2.1.2s 2.2.1.3k
    2.2.1.34 2.2.1.3i 1g.2.1.8 e.1.1.-5k5 i.2.1.8 g.2.1.8 5.1.1.7 a1.1.1.-s y.g.1.-g k.1.1.-1
    ng.q.1.-q 1gg.1c.1.-1c 1d.1.1.-1 4.1.1.-8bv 1.1.1.-8bs 2.3.2.-1 b.1.1.-1 3.1.1.-1
    b.1e.2.-1 2z.2.2.-1 7.1.1.-1 d.12.1.-5ls 13.1.1.-5ls 6.1.1.-5ls nx0.n.2.-1 1s.e.2.-1
    4i.7.2.-1 g.v.2.-1 1z.2.2.-1 5.5.2.-1 d.1.1.-1 5.2.2.-1 3.1.1.1c 3.a.2.-1 u.8.2.-1
    j.2.2.-1 5.8.2.-1 15.1.1.-1 nx.1.1.-ps t.28.1.-tzk gk1.q.1.-w yv.14.1.-14 4w.10.1.-14
    5b.b.1.-13 c.f.1.-13 g.7.1.-13 8.2.1.-13 1dx.1f.1.-1s 4w.m.1.-w 28g.w.1.-w gww.w.1.-w
    2j.p.1.-r o6f.y.1.-y"

/-- Each character with case variants, and the least of them. -/
def foldRuns : Shifts := Shifts.ofText
  "2p.q.1.-w 3j.n.1.-w o.7.1.-w 9.o.2.-1 1e.3.2.-1 7.8.2.-1 h.n.2.-1 19.1.1.-3d 2.3.2.-1
    5.1.1.-8c 4.2.2.-1 5.1.1.-1 4.1.1.-1 6.1.1.-1 7.1.1.-1 8.3.2.-1 7.1.1.-1 5.1.1.-1 3.1.1.-1
    4.2.2.-1 5.1.1.-1 4.1.1.-1 8.1.1.-1 1.1.1.-2 2.1.1.-1 1.1.1.-2 2.1.1.-1 1.1.1.-2 2.8.2.-1
    f.1.1.-27 2.9.2.-1 j.1.1.-1 1.1.1.-2 2.1.1.-1 1.1.1.-2p 1.1.1.-1k 2.k.2.-1 13.1.1.-3m
    3.9.2.-1 p.1.1.-1 1.1.1.-4j 5.1.1.-1 1.1.1.-5f 4.5.2.-1 c.1.1.-5u 1.1.1.-5q 2.2.1.-5p
    3.1.1.-5m 2.1.1.-5n 5.1.1.-5p 3.1.1.-5r 5.1.1.-5t 1.1.1.-5v 6.1.1.-5v 3.1.1.-5x 3.1.1.-5y
    b.1.1.-62 3.1.1.-62 5.1.1.-62 1.1.1.-1x 1.2.1.-61 2.1.1.-1z 6.1.1.-63 67.2.2.-1 6.1.1.-1
    y.1.1.-2c 3.1.1.-kn g.1.1.-12 1.3.1.-11 4.8.1.-w 8.1.1.-38 1.2.1.-w 2.1.1.-lj 1.5.1.-w
    5.1.1.-v 1.9.1.-w 9.1.1.-1s 1.2.1.-1r 3.1.1.-1q 1.1.1.-1l 4.1.1.-1b 1.1.1.-1i 1.1.1.-8
    2.c.2.-1 n.1.1.-2e 1.1.1.-28 2.1.1.-38 1.1.1.-2k 1.1.1.-2o 3.1.1.-1 1.1.1.-7 2.1.1.-1
    2.3.1.-3m 1f.w.1.-w w.g.1.-28 h.h.2.-1 16.r.2.-1 1j.7.2.-1 d.1.1.-f 2.1c.2.-1 40.12.1.-1c
    2vr.6.1.-8 1oo.1.1.-4tq 1.1.1.-4tp 1.1.1.-4tg 1.2.1.-4te 2.1.1.-4tf 1.1.1.-4t8 1.1.1.-4rp
    3.1.1.-1 6.17.1.-2bk 19.3.1.-2bk 90.23.2.-1 4a.1.1.-1n 3.1.1.-5vj 3.1c.2.-1 2v.8.1.-8
    g.6.1.-8 g.8.1.-8 g.8.1.-8 g.6.1.-8 h.4.2.-8 f.8.1.-8 w.8.1.-8 g.8.1.-8 g.8.1.-8 g.2.1.-8
    2.2.1.-22 2.1.1.-9 2.1.1.-5mh a.4.1.-2e 4.1.1.-9 7.1.1.-5kz 5.2.1.-8 2.2.1.-2s 9.1.1.-5kj
    5.2.1.-8 2.2.1.-34 2.1.1.-7 c.2.1.-3k 2.2.1.-3i 2.1.1.-9 8a.1.1.-5tp 4.1.1.-6hr 1.1.1.-6ee
    z.1.1.-s y.g.1.-g k.1.1.-1 ng.q.1.-q 1gg.1c.1.-1c 1d.1.1.-1 1.1.1.-8af 1.1.1.-2xy
    1.1.1.-89z 1.1.1.-8bv 1.1.1.-8bs 2.3.2.-1 5.1.1.-8bg 1.1.1.-8al 1.1.1.-8bj 1.1.1.-8bi
    3.1.1.-1 3.1.1.-1 8.2.1.-8cf 3.1e.2.-1 2z.2.2.-1 7.1.1.-1 d.12.1.-5ls 13.1.1.-5ls
    6.1.1.-5ls nx0.5.2.-1 9.1.1.-r7m 1.1.1.-r7n 2.h.2.-1 1g.e.2.-1 4i.7.2.-1 g.v.2.-1
    1z.2.2.-1 3.1.1.-r9g 2.5.2.-1 d.1.1.-1 1.1.1.-wmg 4.2.2.-1 6.a.2.-1 j.1.1.-wn8 1.1.1.-wnj
    1.1.1.-wnf 1.1.1.-wn5 1.1.1.-wn8 2.1.1.-wlu 1.1.1.-wmi 1.1.1.-wlx 3.8.2.-1 f.1.1.-1c
    1.1.1.-wn7 1.1.1.-raw 2.2.2.-1 3.1.1.-wo7 2.8.2.-1 f.1.1.-wu9 q.1.1.-1 nx.1.1.-ps
    t.28.1.-tzk fpy.1.1.-1 u3.q.1.-w yv.14.1.-14 4w.10.1.-14 5b.b.1.-13 c.f.1.-13 g.7.1.-13
    8.2.1.-13 1dx.1f.1.-1s 4w.m.1.-w 28g.w.1.-w gww.w.1.-w 2j.p.1.-r o6f.y.1.-y"

/-- Characters whose lower case is several characters. -/
def lowerSequences : List (Nat × List Nat) := sequencesOfText
  "8g.2x.lj"

/-- Characters whose upper case is several characters. -/
def upperSequences : List (Nat × List Nat) := sequencesOfText
  "67.2b.2b 95.jg.26 ds.22.lo pc.pl.lk.ld q8.px.lk.ld 13b.111.11u 61i.20.mp 61j.2c.lk
    61k.2f.lm 61l.2h.lm 61m.1t.ji 66o.px.lv 66q.px.lv.lc 66s.px.lv.ld 66u.px.lv.n6 680.64o.pl
    681.64p.pl 682.64q.pl 683.64r.pl 684.64s.pl 685.64t.pl 686.64u.pl 687.64v.pl 688.64o.pl
    689.64p.pl 68a.64q.pl 68b.64r.pl 68c.64s.pl 68d.64t.pl 68e.64u.pl 68f.64v.pl 68g.65k.pl
    68h.65l.pl 68i.65m.pl 68j.65n.pl 68k.65o.pl 68l.65p.pl 68m.65q.pl 68n.65r.pl 68o.65k.pl
    68p.65l.pl 68q.65m.pl 68r.65n.pl 68s.65o.pl 68t.65p.pl 68u.65q.pl 68v.65r.pl 68w.67c.pl
    68x.67d.pl 68y.67e.pl 68z.67f.pl 690.67g.pl 691.67h.pl 692.67i.pl 693.67j.pl 694.67c.pl
    695.67d.pl 696.67e.pl 697.67f.pl 698.67g.pl 699.67h.pl 69a.67i.pl 69b.67j.pl 69e.69m.pl
    69f.pd.pl 69g.p2.pl 69i.pd.n6 69j.pd.n6.pl 69o.pd.pl 69u.6a2.pl 69v.pj.pl 69w.p5.pl
    69y.pj.n6 69z.pj.n6.pl 6a4.pj.pl 6aa.pl.lk.lc 6ab.pl.lk.ld 6ae.pl.n6 6af.pl.lk.n6
    6aq.px.lk.lc 6ar.px.lk.ld 6as.pt.lv 6au.px.n6 6av.px.lk.n6 6b6.6be.pl 6b7.q1.pl 6b8.pb.pl
    6ba.q1.n6 6bb.q1.n6.pl 6bg.q1.pl 1dkw.1y.1y 1dkx.1y.21 1dky.1y.24 1dkz.1y.1y.21
    1dl0.1y.1y.24 1dl1.2b.2c 1dl2.2b.2c 1dlf.11g.11i 1dlg.11g.111 1dlh.11g.117 1dli.11q.11i
    1dlj.11g.119"

def casedRanges : Ranges := Ranges.ofText
  "1t q 6 q 1b 1 a 1 4 1 5 n 1 v 1 5f 1 4 4 5s 2 z 7 2 u 5 2o 1 16 4 2 2 2 4 1 1 6 1 1 3 1 1
    1 k 1 2b 1 3v 8 4m 1 12 9 15 26v 12 1 1 5 1 2 17 1 4 io 2e 2 6 1oi b 5 17 2 3 1s 5c 1s 7q
    2 6 2 12 2 6 2 8 1 1 1 1 1 1 1 v 2 1h 1 7 1 1 3 3 1 7 3 4 2 6 4 d 5 3 1 7 38 1 d 1 g d 2t
    1 4 1 2 a 1 1 3 5 6 1 1 1 1 1 1 4 1 6 4 1 2 4 5 5 4 1 h w 3 2 mp 1g 1ee 6d 6 4 3 2 c 12 1
    1 5 1 nwy 1a i u 3o 2u 3 4 1 25 k 6 1 3 mt 17 1 e 6 28 fnk 7 c 5 sp q 6 q x1 28 2o 10 4 10
    38 b 1 f 1 7 1 2 1 b 1 f 1 7 1 2 cj 1 2 3 1 16 1 9 xx 1f d 1f 2l m a m 26y 1s gv4 1s w p 2
    p jzg 2d 1 1z 1 2 2 1 2 2 2 4 1 c 1 1 1 7 1 1t 1 4 2 8 1 7 1 s 1 4 1 5 1 1 3 7 1 9g 2 p 1
    p 1 v 1 p 1 v 1 p 1 v 1 p 1 v 1 p 1 8 1f8 a 1 k 6 6 79 1q 1oy 1w 1kc q 6 q 6 q"

def caseIgnorableRanges : Ranges := Ranges.ofText
  "13 1 6 1 b 1 z 1 1 1 1z 1 4 1 1 1 4 1 2 2 dz 5c 4 2 4 1 9 2 1 1 6z 7 5r 1 5 1 1d 19 1 1 1
    2 1 2 1 1 18 1 b 6 a b 1 1 z 1 a l g 1 2t 8 1 a 1 4 x 1 1 1 u r 2j b 1m b 4 1 2 1 o o 17 3
    18 1 7 2 5 9 15 1m 1j 1 1 1 4 8 4 1 3 7 a 2 d 1 f 1 1m 1 4 4 8 1 k 2 q 1 2 2 1l 1 4 2 4 2
    2 3 3 1 u 2 3 1 b 2 1l 1 4 5 1 2 4 1 k 2 m 6 1 1 1m 1 2 1 1 4 8 1 7 2 b 2 u 1 1p 1 c 1 1e
    1 3 1 1j 1 1 3 5 3 1 4 7 2 b 2 t 1 1m 1 2 1 6 1 5 2 k 2 s 2 1l 2 4 4 8 1 k 2 t 1 20 1 7 3
    1 1 2i 1 2 7 b 9 2q 1 2 9 9 1 1 7 21 2 r 1 1 1 1 1 1j e 1 5 1 2 5 b 1 10 9 1 2u 4 1 6 1 2
    2 2 p 2 4 3 g 4 d 1 2 2 6 1 f 1 2m 1 gw 3 qa 3 t 2 u 2 u 2 1s 2 1 7 8 1 2 b 3 1 5 1 19 5
    1f 1 1t 2 y 1 3a 3 4 2 9 1 6 3 63 2 2 1 1m 1 1 7 1 1 1 1 2 8 6 a 2 1 13 1 8 1a 2 c k 4 1c
    1 1 5 1 1 5 1 14 9 c 2 w 4 2 2 1 3 1k 1 1 2 3 1 1 3 1m 8 2 2 1s 6 2a 3 1 d 1 7 4 1 6 1 3 2
    1e 1r d 1 y 2t cd 1 1 3 b 3 d 3 d 3 d 2 c 5 8 2 a 1 2 1 2 5 1d 5 1 a 1 1 d 1 g d 1f x 2a3
    2 35 3 3h 1 f 1 2o w 1b 1 d1 1 10 4 3 5 5 1 2l 6 2l 3 lxy 1 yq 6 7i 1 2q 4 1 a 1 1 s 4 28
    2 e y 26 1 n 3 2u 4 3 2 8 1 3 1 4 1 p 2 5 1 47 2 q i d 1 12 8 p b 1a 3 1c 1 2 4 2 2 h 1 l
    2 1u 6 2 2 2 2 c 1 8 1 z 1 b 1 1f 1 1 3 2 2 5 2 1 1 r 1 e 2 5 2 1 1 2s 5 9 3 3d 1 2 1 4 1
    fn4 1 43 h fx g 3 1 c g y 1 2 1 4p 1 7 1 6 1 b 1 z 1 1 1 1b 1 19 2 1v 1 l 3 e9 1 6a 1 45 5
    sl 6 1 16 1 9 g6 3 1 2 5 4 14 3 4 1 4l 2 fx 4 12 1 q 5 1 1 8r 2 o 1 1g 6 1y b 1d 4 3f 1 1i
    f 15 1 2 2 a 3 1d 4 2 2 2 1 4 1 a 1 1e 3 10 5 1 8 1q 1 c 2 1g 9 a 4 2 1 2n 3 2 1 1 2 6 1 2
    1 4d 1 3 8 l 2 1l 2 3 1 11 7 3 5 1y 6 d 1 1 1 1 1 e 2 2d 8 2 3 1 1 n 1 2c 6 1 1 4 2 1 2 6m
    4 6 2 1 2 r 2 2d 8 2 1 1 2 2y 1 1 1 2 6 1 1 2t 1 1 1 2 4 1 5 77 9 1 2 74 2 1 1 4 1 40 4 2
    2 4 1 w a 14 6 2 4 8 1 9 6 2 3 1a d 1 2 5i 1 1 3 1 1 5l 7 1 6 1 1 2a m 2 7 1 2 1 2 3e 6 3
    1 1 2 1 7 1 1 20 2 3 1 1 1 1t 1 7t 2 b 2 1g 5 5 1 1 1 n 1 445 h 6 f 8ug c 3 3 1xc 5 1n 7 9
    4 e4 3 14 2 de 1 1r h 1s 2 1 2 d 2 cn0 4 1 7 1 2 2hq 2 1 4 3mk 1a 2 n f4 3 9 g 2 7 u 4 44
    3 1iz 1j 4 1e 8 1 e 1 m 5 1 f 11s 7 1 h 2 7 1 2 1 5 5 1q x 1 4g e a8 1 1p 4 e3 5 72 2 6r 1
    2 1 7 2 5 1 9 1 cw 7 31 8 23z 5 gx6p 1 u 2o 3k 6o"

/-- The characters that a table of sequences and a table of shifts give for a character. -/
def mapped (sequences : List (Nat × List Nat)) (shifts : Shifts) (c : Char) : List Char :=
  match sequences.lookup c.toNat with
  | some codes => codes.map Char.ofNat
  | none => [Char.ofNat (shifts.apply c.toNat)]

def lowerChar (c : Char) : List Char :=
  if c.toNat < 128 then [c.toLower] else mapped lowerSequences lowerRuns c

def upperChar (c : Char) : List Char :=
  if c.toNat < 128 then [c.toUpper] else mapped upperSequences upperRuns c

/-- Whether the first character that case does not ignore is one with case. -/
def meetsCased (cs : List Char) : Bool :=
  match cs.dropWhile fun c => caseIgnorableRanges.contains c.toNat with
  | c :: _ => casedRanges.contains c.toNat
  | [] => false

/-- The lower case of a text, after the characters `before` (nearest first). -/
def lowerAfter (before : List Char) : List Char → List Char
  | [] => []
  | c :: rest =>
      let image :=
        if c = 'Σ' then (if meetsCased before && !meetsCased rest then ['ς'] else ['σ'])
        else lowerChar c
      image ++ lowerAfter (c :: before) rest

def lower (s : String) : String := String.ofList (lowerAfter [] s.toList)

def upper (s : String) : String := String.ofList (s.toList.flatMap upperChar)

/-- The characters that differ from `c` in case alone, `c` included. -/
def alike (c : Char) : List Char :=
  let least := foldRuns.apply c.toNat
  c :: ((least :: foldRuns.sources least).filter (· ≠ c.toNat)).map Char.ofNat

end TabPilot.Text
