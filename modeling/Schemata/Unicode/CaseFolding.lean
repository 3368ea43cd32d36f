import Schemata.Unicode.Ranges

/-!
# Simple case folding

Characters that fold to the same one form an orbit.  Most orbits are pairs, which are kept in
runs `first+offset*count/stride`: so many pairs of a code point and the one `offset` further on,
whose first members are `stride` apart.
-/

namespace Schemata.Unicode

/-- Pairs of characters that differ in case only. -/
structure PairRun where
  first : Nat
  offset : Nat
  count : Nat
  stride : Nat
  deriving DecidableEq, Repr

/-- A run of pairs from its token. -/
def PairRun.decode (token : List Char) : PairRun :=
  let (run, stride) := pairAt '/' token
  let (pair, count) := pairAt '*' run
  let (first, offset) := pairAt '+' pair
  ⟨number first, offset, count, stride⟩

/-- The code point is the lower member of one of the pairs. -/
def PairRun.holds (r : PairRun) (n : Nat) : Bool :=
  r.first ≤ n && n < r.first + r.count * r.stride && (n - r.first) % r.stride == 0

/-- The orbits of two characters. -/
def casePairs : List PairRun :=
  (tokens
    "65+32*10 76+32*7 84+32*7 192+32*5 198+32*17 216+32*7 223+7615 255+121 256+1*24/2 306+1*3/2
    313+1*8/2 330+1*23/2 377+1*3/2 384+195 385+210 386+1*2/2 390+206 391+1 393+205*2 395+1 398+79
    399+202 400+203 401+1 403+205 404+207 405+97 406+211 407+209 408+1 410+163 411+42561 412+211
    413+213 414+130 415+214 416+1*3/2 422+218 423+1 425+218 428+1 430+218 431+1 433+217*2
    435+1*2/2 439+219 440+1 444+1 447+56 461+1*8/2 478+1*9/2 500+1 504+1*20/2 546+1*9/2 570+10795
    571+1 574+10792 575+10815*2 577+1 580+69 581+71 582+1*5/2 592+10783 593+10780 594+10782
    604+42319 609+42315 612+42343 613+42280 614+42308 618+42308 619+10743 620+42305 625+10749
    637+10727 642+42307 647+42282 669+42261 670+42258 880+1*2/2 886+1 891+130*3 895+116 902+38
    904+37*3 908+64 910+63*2 912+7235 913+32*2/2 916+32*2/2 919+32 923+32*2/2 926+32*2 932+32*2
    935+32*2 938+32*2 944+7219 975+8 984+1*12/2 1010+7 1015+1 1018+1 1024+80*16 1040+32*2
    1043+32*2/2 1046+32*8 1055+32*2 1059+32*7 1067+32*5 1120+1 1124+1*15/2 1162+1*27/2 1216+15
    1217+1*7/2 1232+1*48/2 1329+48*38 4256+7264*38 4295+7264 4301+7264 4304+3008*43 4349+3008*3
    5024+38864*80 5104+8*6 7305+1 7545+35332 7549+3814 7566+35384 7680+1*48/2 7778+1*26/2
    7840+1*48/2 7936+8*8 7952+8*6 7968+8*8 7984+8*8 8000+8*6 8017+8*4/2 8032+8*8 8048+74*2
    8050+86*4 8054+100*2 8056+128*2 8058+112*2 8060+126*2 8064+8*8 8080+8*8 8096+8*8 8112+8*2
    8115+9 8131+9 8144+8*2 8160+8*2 8165+7 8179+9 8498+28 8544+16*16 8579+1 9398+26*26
    11264+48*48 11360+1 11367+1*3/2 11378+1 11381+1 11392+1*50/2 11499+1*2/2 11506+1 42560+1*5/2
    42572+1*17/2 42624+1*14/2 42786+1*7/2 42802+1*31/2 42873+1*2/2 42878+1*5/2 42891+1
    42896+1*2/2 42900+48 42902+1*10/2 42931+928 42932+1*8/2 42951+1*2/2 42956+1*8/2 42997+1
    64261+1 65313+32*26 66560+40*40 66736+40*36 66928+39*11 66940+39*15 66956+39*7 66964+39*2
    68736+64*51 68944+32*22 71840+32*32 93760+32*32 93856+27*25 125184+34*34").map PairRun.decode

/-- The orbits of more than two characters. -/
def caseOrbits : List (List Nat) :=
  (tokens
    "75/107/8490 83/115/383 181/924/956 197/229/8491 452/453/454 455/456/457 458/459/460
    497/498/499 837/921/953/8126 914/946/976 917/949/1013 920/952/977/1012 922/954/1008
    928/960/982 929/961/1009 931/962/963 934/966/981 937/969/8486 1042/1074/7296 1044/1076/7297
    1054/1086/7298 1057/1089/7299 1058/1090/7300/7301 1066/1098/7302 1122/1123/7303
    7304/42570/42571 7776/7777/7835").map fun token =>
      (Text.splitAt '/' token).map number

/-- The other characters that differ from a character in case only. -/
def caseVariants (c : Char) : List Char :=
  let n := c.toNat
  let partners := casePairs.flatMap fun r =>
    (if r.holds n then [n + r.offset] else []) ++
      (if r.offset ≤ n ∧ r.holds (n - r.offset) then [n - r.offset] else [])
  let orbit := ((caseOrbits.find? fun o => o.contains n).getD []).filter (· != n)
  (partners ++ orbit).map Char.ofNat

end Schemata.Unicode
