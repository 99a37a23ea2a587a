/-!
# Conformance programs

Small programs with the output a machine must give on them.
-/

namespace ByteMachine.Conformance

structure Program where
  name : String
  image : String
  expected : String

def print8 : Program where
  name := "print8"
  expected := "8\n"
  image := "# Print the number 8
#
# Expected output: 8

10000010 # LDI R0,8
00000000
00001000
01000111 # PRN R0
00000000
00000001 # HLT
"

def mult : Program where
  name := "mult"
  expected := "72\n"
  image := "# Multiply 8 by 9
#
# Expected output: 72

10000010 # LDI R0,8
00000000
00001000
10000010 # LDI R1,9
00000001
00001001
10100010 # MUL R0,R1
00000000
00000001
01000111 # PRN R0
00000000
00000001 # HLT
"

def divide : Program where
  name := "divide"
  expected := "5\n"
  image := "# Divide 20 by 4
#
# Expected output: 5

10000010 # LDI R0,20
00000000
00010100
10000010 # LDI R1,4
00000001
00000100
10100011 # DIV R0,R1
00000000
00000001
01000111 # PRN R0
00000000
00000001 # HLT
"

def stack : Program where
  name := "stack"
  expected := "2\n4\n1\n"
  image := "# Push and pop a few values
#
# Expected output:
# 2
# 4
# 1

10000010 # LDI R0,1
00000000
00000001
10000010 # LDI R1,2
00000001
00000010
01000101 # PUSH R0
00000000
01000101 # PUSH R1
00000001
10000010 # LDI R0,3
00000000
00000011
01000110 # POP R0
00000000
01000111 # PRN R0
00000000
10000010 # LDI R0,4
00000000
00000100
01000101 # PUSH R0
00000000
01000110 # POP R2
00000010
01000110 # POP R1
00000001
01000111 # PRN R2
00000010
01000111 # PRN R1
00000001
00000001 # HLT
"

def arith : Program where
  name := "arith"
  expected := "4\n255\n0\n"
  image := "# Registers are eight bits wide and wrap around
#
# Expected output:
# 4
# 255
# 0

10000010 # LDI R0,200
00000000
11001000
10000010 # LDI R1,60
00000001
00111100
10100000 # ADD R0,R1
00000000
00000001
01000111 # PRN R0
00000000
10000010 # LDI R2,0
00000010
00000000
10000010 # LDI R3,1
00000011
00000001
10100001 # SUB R2,R3
00000010
00000011
01000111 # PRN R2
00000010
10000010 # LDI R4,16
00000100
00010000
10100010 # MUL R4,R4
00000100
00000100
01000111 # PRN R4
00000100
00000001 # HLT
"

def programs : List Program := [print8, mult, divide, stack, arith]

end ByteMachine.Conformance
